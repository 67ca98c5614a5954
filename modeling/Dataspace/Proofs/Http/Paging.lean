import Dataspace.Http.Registry
import Dataspace.Proofs.Http.Answered
import Mathlib.Data.List.Nodup
import Mathlib.Data.List.Perm.Subperm
/-!
When the listing of a registry ends.  The pages of a registry that has a fixed page for each cursor
lead from cursor to cursor.  Main statement: where no cursor comes back the listing is over after as
many requests as there are pages, and where one comes back it never is.
-/

namespace Dataspace.Http.Registry

variable {M : Memory} {α : Type} (c : Client) (codec : Codec α)
  (server : Request → Except Silence Reply) (path : String)

/-! ## Pages -/

/-- The page that a server has for a cursor: its items and the cursor that it names. -/
def served (cursor : Option String) : Except RemoteError (List α × Option String) :=
  (c.text server (pagePath path cursor)).2.bind fun (url, text) =>
    (Client.decodeText .free url text).bind fun v =>
      ((codec.list.decode (pageParts v).1).mapError fun e => .decode url e.message).map fun items =>
        (items, (pageParts v).2)

theorem answered_page (cursor : Option String) :
    answered server (page c codec path cursor : Work M _) =
      ((c.text server (pagePath path cursor)).1,
        some (.value (served c codec server path cursor))) := by
  rw [page, answered_bind (answered_requestJson c _ _), served]
  rcases (c.text server (pagePath path cursor)).2 with e | ⟨url, text⟩
  · simp [Except.bind]
  · rcases hv : Client.decodeText .free url text with e | v
    · simp [Except.bind, Except.map, hv]
    · rcases hitems : codec.list.decode (pageParts v).1 with e | items <;>
        simp [Except.bind, Except.map, hv, hitems] <;> rfl

theorem length_of_served {cursor : Option String} {x : List α × Option String}
    (h : served c codec server path cursor = .ok x) :
    (c.text server (pagePath path cursor)).1.length = 1 := by
  rw [served] at h
  rcases htext : (c.text server (pagePath path cursor)).2 with e | text
  · simp [htext, Except.bind] at h
  · exact (c.text_length server _).2 text htext

/-! ## The way from cursor to cursor -/

/-- The cursor of the next page, if there is one.  A page that names its own cursor is the last. -/
def next? (cursor : Option String) : Option String :=
  (served c codec server path cursor).toOption.bind fun page => page.2.filter (cursor ≠ some ·)

/-- The cursor of the page that comes so many pages after that of a cursor. -/
def after : Nat → Option String → Option (Option String)
  | 0, cursor => some cursor
  | n + 1, cursor => (next? c codec server path cursor).bind fun next => after n (some next)

theorem after_add (m n : Nat) (cursor : Option String) :
    after c codec server path (m + n) cursor =
      (after c codec server path m cursor).bind (after c codec server path n) := by
  induction m generalizing cursor with
  | zero => simp [after]
  | succ m ih =>
      rw [Nat.succ_add, after, after]
      rcases next? c codec server path cursor with _ | next
      · rfl
      · exact ih (some next)

theorem pages_last {cursor : Option String} (h : next? c codec server path cursor = none) :
    ∃ r, ∀ fuel, answered server (pages c codec path (fuel + 1) cursor : Work M _) =
      ((c.text server (pagePath path cursor)).1, some (.value (some r))) := by
  rcases hserved : served c codec server path cursor with e | ⟨items, _ | next⟩
  · refine ⟨.error e, fun fuel => ?_⟩
    rw [pages, answered_bind (answered_page ..), hserved]
    simp
  · refine ⟨.ok items, fun fuel => ?_⟩
    rw [pages, answered_bind (answered_page ..), hserved]
    simp
  · have hsame : cursor = some next := by
      simpa [next?, hserved, Except.toOption] using h
    refine ⟨.ok items, fun fuel => ?_⟩
    rw [pages, answered_bind (answered_page ..), hserved]
    simp [hsame]

theorem pages_next {cursor : Option String} {next : String}
    (h : next? c codec server path cursor = some next) :
    (c.text server (pagePath path cursor)).1.length = 1 ∧
      ∃ items, ∀ fuel rs rest,
        answered server (pages c codec path fuel (some next) : Work M _) =
          (rs, some (.value rest)) →
        answered server (pages c codec path (fuel + 1) cursor : Work M _) =
          ((c.text server (pagePath path cursor)).1 ++ rs,
            some (.value (rest.map fun r => r.map (items ++ ·)))) := by
  rcases hserved : served c codec server path cursor with e | ⟨items, _ | named⟩
  · simp [next?, hserved, Except.toOption] at h
  · simp [next?, hserved, Except.toOption] at h
  · obtain ⟨rfl, hother⟩ : named = next ∧ cursor ≠ some next := by
      simpa [next?, hserved, Except.toOption] using h
    refine ⟨length_of_served c codec server path hserved, items, ?_⟩
    intro fuel rs rest hrest
    rw [pages, answered_bind (answered_page ..), hserved]
    simp [hother, answered_bind hrest]

/-- Where the way ends, so does the list. -/
theorem pages_over {n : Nat} {cursor : Option String}
    (h : after c codec server path n cursor = none) :
    ∃ rs r, rs.length ≤ n ∧ ∀ fuel, n ≤ fuel →
      answered server (pages c codec path fuel cursor : Work M _) =
        (rs, some (.value (some r))) := by
  induction n generalizing cursor with
  | zero => simp [after] at h
  | succ n ih =>
      rcases hnext : next? c codec server path cursor with _ | next
      · obtain ⟨r, hpages⟩ := pages_last (M := M) c codec server path hnext
        have hlength := (c.text_length server (pagePath path cursor)).1
        refine ⟨_, r, Nat.le_trans hlength (Nat.le_add_left 1 n), ?_⟩
        rintro (_ | fuel) hfuel
        · omega
        · exact hpages fuel
      · have hrest : after c codec server path n (some next) = none := by
          simpa [after, hnext] using h
        obtain ⟨rs, r, hlength, hpages⟩ := ih hrest
        obtain ⟨hone, items, hstep⟩ := pages_next (M := M) c codec server path hnext
        refine ⟨(c.text server (pagePath path cursor)).1 ++ rs, r.map (items ++ ·), ?_, ?_⟩
        · simp [hone]
          omega
        · rintro (_ | fuel) hfuel
          · omega
          · exact hstep fuel rs (some r) (hpages fuel (Nat.le_of_succ_le_succ hfuel))

/-- As long as the way goes on, every page is asked for, and there is no list. -/
theorem pages_on {fuel : Nat} {cursor : Option String}
    (h : after c codec server path fuel cursor ≠ none) :
    ∃ rs, rs.length = fuel ∧
      answered server (pages c codec path fuel cursor : Work M _) = (rs, some (.value none)) := by
  induction fuel generalizing cursor with
  | zero => exact ⟨[], rfl, rfl⟩
  | succ fuel ih =>
      rcases hnext : next? c codec server path cursor with _ | next
      · simp [after, hnext] at h
      · have hrest : after c codec server path fuel (some next) ≠ none := by
          simpa [after, hnext] using h
        obtain ⟨rs, hlength, hpages⟩ := ih hrest
        obtain ⟨hone, items, hstep⟩ := pages_next (M := M) c codec server path hnext
        refine ⟨(c.text server (pagePath path cursor)).1 ++ rs, ?_, ?_⟩
        · simp [hone, hlength, Nat.add_comm]
        · exact hstep fuel rs none hpages

/-! ## Ways that come back -/

variable {c codec server path} in
theorem after_ne_none_of_le {m n : Nat} {cursor : Option String} (hmn : m ≤ n)
    (h : after c codec server path n cursor ≠ none) :
    after c codec server path m cursor ≠ none := by
  obtain ⟨k, rfl⟩ := Nat.exists_eq_add_of_le hmn
  intro hnone
  simp [after_add, hnone] at h

/-- The way from the first page comes to one of its cursors again. -/
def Returns : Prop :=
  ∃ i j, i < j ∧ after c codec server path i none = after c codec server path j none ∧
    after c codec server path j none ≠ none

/-- A way that comes back goes on for ever. -/
theorem Returns.goes_on (h : Returns c codec server path) (n : Nat) :
    after c codec server path n none ≠ none := by
  obtain ⟨i, j, hlt, hsame, hsome⟩ := h
  induction n using Nat.strongRecOn with
  | ind n ih =>
      rcases Nat.lt_or_ge n j with hn | hn
      · exact after_ne_none_of_le (Nat.le_of_lt hn) hsome
      · obtain ⟨k, rfl⟩ := Nat.exists_eq_add_of_le hn
        rw [after_add, ← hsame, ← after_add]
        exact ih (i + k) (by omega)

/-- A server names these cursors at most. -/
def NamesIn (known : List String) : Prop :=
  ∀ cursor items next, served c codec server path cursor = .ok (items, some next) → next ∈ known

variable {c codec server path} in
theorem NamesIn.mem_of_after {known : List String} (h : NamesIn c codec server path known)
    {n : Nat} {cursor : Option String}
    (hafter : after c codec server path (n + 1) none = some cursor) :
    ∃ next ∈ known, cursor = some next := by
  rw [after_add, Option.bind_eq_some_iff] at hafter
  obtain ⟨previous, -, hnext⟩ := hafter
  rw [after, Option.bind_eq_some_iff] at hnext
  obtain ⟨next, hnext, hcursor⟩ := hnext
  obtain rfl : some next = cursor := Option.some.inj hcursor
  rcases hserved : served c codec server path previous with e | ⟨items, named⟩
  · simp [next?, hserved, Except.toOption] at hnext
  · obtain ⟨rfl, -⟩ : named = some next ∧ previous ≠ some next := by
      simpa [next?, hserved, Except.toOption, Option.filter_eq_some_iff] using hnext
    exact ⟨next, h previous items next hserved, rfl⟩

/-- A way that does not come back is over when it has been at every cursor. -/
theorem NamesIn.after_eq_none {known : List String} (h : NamesIn c codec server path known)
    (hreturns : ¬ Returns c codec server path) :
    after c codec server path (known.length + 1) none = none := by
  by_contra hsome
  have hway (n : Nat) (hn : n < known.length + 1) :
      ∃ next ∈ known, after c codec server path (n + 1) none = some (some next) := by
    obtain ⟨cursor, hafter⟩ :=
      Option.ne_none_iff_exists'.1 (after_ne_none_of_le (Nat.succ_le_of_lt hn) hsome)
    obtain ⟨next, hmem, rfl⟩ := h.mem_of_after hafter
    exact ⟨next, hmem, hafter⟩
  choose! name hname hafter using hway
  have hnodup : ((List.range (known.length + 1)).map name).Nodup := by
    refine List.Nodup.map_on ?_ List.nodup_range
    intro i hi j hj hsame
    rw [List.mem_range] at hi hj
    by_contra hne
    apply hreturns
    rcases Nat.lt_or_gt_of_ne hne with hlt | hlt
    · exact ⟨i + 1, j + 1, by omega, by rw [hafter i hi, hafter j hj, hsame], by simp [hafter j hj]⟩
    · exact ⟨j + 1, i + 1, by omega, by rw [hafter i hi, hafter j hj, hsame], by simp [hafter i hi]⟩
  have hsubset : (List.range (known.length + 1)).map name ⊆ known := by
    intro next hnext
    obtain ⟨i, hi, rfl⟩ := List.mem_map.1 hnext
    exact hname i (List.mem_range.1 hi)
  have hlength := (hnodup.subperm hsubset).length_le
  simp only [List.length_map, List.length_range] at hlength
  omega

/-! ## The listing -/

variable [DecidableEq M.Key]

/-- A list of so many pages at most. -/
theorem listing_of_over {n : Nat} (h : after c codec server path n none = none) :
    ∃ r, ∀ (s : Session Scripted.wireSurroundings M) fuel steps,
      s.shared.world.server = server → n ≤ fuel → fuel + 2 ≤ steps →
        (s.run steps (listing c codec fuel path)).2 = some (.value r) ∧
        (s.run steps (listing c codec fuel path)).1.shared.world.sent.length ≤
          s.shared.world.sent.length + n := by
  obtain ⟨rs, r, hlength, hpages⟩ := pages_over (M := M) c codec server path h
  refine ⟨r, ?_⟩
  rintro s fuel steps rfl hfuel hsteps
  have hlisting : answered s.shared.world.server (listing c codec fuel path : Work M _) =
      (rs, some (.value r)) := by
    rw [listing, answered_bind (hpages fuel hfuel)]
    simp
  have hrequests : rs.length + 2 ≤ steps := by omega
  obtain ⟨houtcome, hworld⟩ := run_answered hlisting hrequests
  refine ⟨houtcome, ?_⟩
  rw [hworld]
  simpa using hlength

/-- A list that never comes, however many pages are asked for. -/
theorem Returns.endless (h : Returns c codec server path)
    (s : Session Scripted.wireSurroundings M) (fuel steps : Nat)
    (hserver : s.shared.world.server = server) (hsteps : fuel + 2 ≤ steps) :
    (s.run steps (listing c codec fuel path)).2 = some (.crashed (some "too many pages")) ∧
      (s.run steps (listing c codec fuel path)).1.shared.world.sent.length =
        s.shared.world.sent.length + fuel := by
  subst hserver
  obtain ⟨rs, hlength, hpages⟩ := pages_on (M := M) c codec _ path (h.goes_on c codec _ path fuel)
  have hlisting : answered s.shared.world.server (listing c codec fuel path : Work M _) =
      (rs, some (.crashed (some "too many pages"))) := by
    rw [listing, answered_bind hpages]
    simp [answered]
  have hrequests : rs.length + 2 ≤ steps := by omega
  obtain ⟨houtcome, hworld⟩ := run_answered hlisting hrequests
  refine ⟨houtcome, ?_⟩
  rw [hworld]
  simpa using hlength

/-- Where no cursor comes back the listing is over after one request for each cursor and one more.
Where one comes back there is no end of requests: each page that is allowed is asked for, and no
list comes of it. -/
theorem listing_ends_unless_returns (known : List String)
    (hknown : NamesIn c codec server path known) :
    (¬ Returns c codec server path → ∃ r, ∀ (s : Session Scripted.wireSurroundings M) fuel steps,
      s.shared.world.server = server → known.length + 1 ≤ fuel → fuel + 2 ≤ steps →
        (s.run steps (listing c codec fuel path)).2 = some (.value r) ∧
        (s.run steps (listing c codec fuel path)).1.shared.world.sent.length ≤
          s.shared.world.sent.length + (known.length + 1)) ∧
    (Returns c codec server path → ∀ (s : Session Scripted.wireSurroundings M) fuel steps,
      s.shared.world.server = server → fuel + 2 ≤ steps →
        (s.run steps (listing c codec fuel path)).2 = some (.crashed (some "too many pages")) ∧
        (s.run steps (listing c codec fuel path)).1.shared.world.sent.length =
          s.shared.world.sent.length + fuel) := by
  constructor
  · intro hreturns
    exact listing_of_over c codec server path (hknown.after_eq_none c codec server path hreturns)
  · intro hreturns s fuel steps hserver hsteps
    exact hreturns.endless c codec server path s fuel steps hserver hsteps

/-! ## Two registries -/

/-- A page without shells that names a cursor. -/
def pageBefore (cursor : String) : String :=
  "\x7b\"result\":[],\"paging_metadata\":\x7b\"cursor\":\"" ++ cursor ++ "\"\x7d\x7d"

def reader : Client :=
  ⟨"https://p1.example/dtr", [], none⟩

/-- A registry of two pages, of which the second names itself. -/
def straight (_ : Request) : Except Silence Reply :=
  .ok ⟨200, .ok (pageBefore "a")⟩

/-- A registry of three pages, of which the last two name each other. -/
def circle (r : Request) : Except Silence Reply :=
  .ok ⟨200, .ok (pageBefore
    (if r.url = "https://p1.example/dtr/lookup/shells?cursor=a" then "b" else "a"))⟩

/-- A server names what stands in its replies. -/
theorem namesIn_of_bodies {known : List String}
    (h : ∀ r, ∃ text, server r = .ok ⟨200, .ok text⟩ ∧
      ∀ next, (Json.read? text).bind (fun v => (pageParts v.settle).2) = some next → next ∈ known) :
    NamesIn c codec server path known := by
  intro cursor items next hserved
  unfold served Client.text at hserved
  rcases hurl : c.url (pagePath path cursor) with e | url
  · simp [hurl, Except.bind] at hserved
  · obtain ⟨text, hreply, hnamed⟩ := h (c.getting url)
    have hbody : bodyOf (c.getting url) (server (c.getting url)) = .ok text := by
      rw [hreply]
      rfl
    rcases hv : Json.read? text with _ | v
    · simp [hurl, hbody, Client.decodeText, hv, Except.bind, Except.map] at hserved
    · have hdecoded : Client.decodeText .free url text = .ok v.settle := by
        rw [Client.decodeText, hv]
        rfl
      rcases hitems : codec.list.decode (pageParts v.settle).1 with e | decoded
      · simp only [hurl, Except.bind, hbody, Except.map, hdecoded, hitems] at hserved
        cases hserved
      · simp only [hurl, Except.bind, hbody, Except.map, hdecoded, hitems] at hserved
        obtain ⟨rfl, hnext⟩ := Prod.mk.inj (Except.ok.inj hserved)
        exact hnamed next (by simpa [hv] using hnext)

theorem straight_namesIn : NamesIn reader .text straight (lookupPath []) ["a"] := by
  apply namesIn_of_bodies
  intro r
  refine ⟨pageBefore "a", rfl, ?_⟩
  have hcursor : (Json.read? (pageBefore "a")).bind (fun v => (pageParts v.settle).2) =
      some "a" := by
    decide +kernel
  simp [hcursor]

theorem straight_listed :
    NamesIn reader .text straight (lookupPath []) ["a"] ∧
      ∃ r, ∀ (s : Session Scripted.wireSurroundings Dataspace.Registry.memory) fuel steps,
        s.shared.world.server = straight → 2 ≤ fuel → fuel + 2 ≤ steps →
          (s.run steps (listing reader .text fuel (lookupPath []))).2 = some (.value r) ∧
          (s.run steps (listing reader .text fuel (lookupPath []))).1.shared.world.sent.length ≤
            s.shared.world.sent.length + 2 := by
  have hover : after reader .text straight (lookupPath []) 2 none = none := by decide +kernel
  have hreturns : ¬ Returns reader .text straight (lookupPath []) :=
    fun hreturns => hreturns.goes_on _ _ _ _ 2 hover
  exact ⟨straight_namesIn,
    (listing_ends_unless_returns reader .text straight (lookupPath []) ["a"] straight_namesIn).1
      hreturns⟩

def circling : Session Scripted.wireSurroundings Dataspace.Registry.memory :=
  .start ⟨circle, .down, []⟩ 0

/-- Two pages that name each other have no list: there is no bound to the requests. -/
theorem circle_listed_for_ever :
    NamesIn reader .text circle (lookupPath []) ["a", "b"] ∧
      ¬ ∃ most, ∀ fuel steps, fuel + 2 ≤ steps →
        (circling.run steps
          (listing reader .text fuel (lookupPath []))).1.shared.world.sent.length ≤ most := by
  constructor
  · apply namesIn_of_bodies
    intro r
    refine ⟨_, rfl, ?_⟩
    have hcursors : ∀ cursor ∈ ["a", "b"],
        (Json.read? (pageBefore cursor)).bind (fun v => (pageParts v.settle).2) = some cursor := by
      decide +kernel
    split
    · simp [hcursors "b" (by simp)]
    · simp [hcursors "a" (by simp)]
  · rintro ⟨most, hmost⟩
    have hreturns : Returns reader .text circle (lookupPath []) :=
      ⟨1, 3, by decide, by decide +kernel, by decide +kernel⟩
    obtain ⟨-, hsent⟩ := hreturns.endless _ _ _ _ circling (most + 1) (most + 3) rfl (by omega)
    have hbound := hmost (most + 1) (most + 3) (by omega)
    rw [hsent] at hbound
    omega

end Dataspace.Http.Registry
