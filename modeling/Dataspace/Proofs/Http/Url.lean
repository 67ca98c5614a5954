import Dataspace.Http.Client
import Dataspace.Proofs.Text.Form
import Mathlib.Data.List.TakeWhile
/-!
Which urls a client can build.  The host of a url ends before its path, so that a query behind
the path does not decide whether it is a url.  Main statement: `url_withQuery`.
-/

namespace Dataspace.Http

namespace Url

/-- The character is kept at every place of a path, and ends neither a scheme nor a path. -/
def IsKept (c : Char) : Prop :=
  33 ≤ c.toNat ∧ c ≠ ':' ∧ c ≠ '#'

instance (c : Char) : Decidable (IsKept c) :=
  inferInstanceAs (Decidable (_ ∧ _ ∧ _))

variable {path : List Char}

/-- A character that does not count at the ends of a url. -/
def isEdge (c : Char) : Bool :=
  decide (c.toNat ≤ 32)

def isInner (c : Char) : Bool :=
  c ≠ '\t' && c ≠ '\n' && c ≠ '\r'

/-- Of a text, it can be computed. -/
theorem isKept_of_all {cs : List Char} (h : cs.all (IsKept ·) = true) : ∀ c ∈ cs, IsKept c :=
  fun c hc => of_decide_eq_true (List.all_eq_true.1 h c hc)

theorem IsKept.not_isEdge {c : Char} (h : IsKept c) : ¬ isEdge c = true := by
  have hwide := h.1
  simp only [isEdge, decide_eq_true_eq]
  omega

theorem IsKept.isInner {c : Char} (h : IsKept c) : isInner c = true := by
  have hwide := h.1
  have hother : ∀ d : Char, d.toNat < 33 → c ≠ d := by
    rintro d hd rfl
    omega
  simp [Url.isInner, hother '\t' (by decide), hother '\n' (by decide), hother '\r' (by decide)]

theorem trimmed_append (hpath : path ≠ []) (hkept : ∀ c ∈ path, IsKept c) (before : List Char) :
    trimmed (before ++ path) = (before.dropWhile isEdge).filter isInner ++ path := by
  have hdrop : (before ++ path).dropWhile isEdge = before.dropWhile isEdge ++ path := by
    rw [List.dropWhile_append]
    split
    · next hnil =>
        obtain ⟨c, rest, rfl⟩ := List.exists_cons_of_ne_nil hpath
        rw [List.isEmpty_iff.1 hnil,
          List.dropWhile_cons_of_neg (hkept c List.mem_cons_self).not_isEdge, List.nil_append]
    · rfl
  have hlast : ∀ cs : List Char,
      ((cs ++ path).reverse.dropWhile isEdge).reverse = cs ++ path := by
    intro cs
    obtain ⟨rest, c, rfl⟩ := (List.eq_nil_or_concat' path).resolve_left hpath
    have hc := (hkept c (List.mem_append_right _ (List.mem_singleton_self c))).not_isEdge
    rw [← List.append_assoc, List.reverse_append, List.reverse_singleton, List.singleton_append,
      List.dropWhile_cons_of_neg hc, List.reverse_cons, List.reverse_reverse]
  have hfilter : path.filter isInner = path :=
    List.filter_eq_self.2 fun c hc => (hkept c hc).isInner
  change ((((before ++ path).dropWhile isEdge).reverse.dropWhile isEdge).reverse.filter isInner) = _
  rw [hdrop, hlast, List.filter_append, hfilter]

/-- A path does not contain the end of the scheme. -/
theorem scheme?_append (hkept : ∀ c ∈ path, IsKept c) (before : List Char) :
    scheme? (before ++ path) =
      (scheme? before).map fun (scheme, rest) => (scheme, rest ++ path) := by
  have hcolon : ':' ∉ path := fun h => (hkept ':' h).2.1 rfl
  cases hcut : Text.cutAtFirst ':' before with
  | none =>
      have hnone : Text.cutAtFirst ':' (before ++ path) = none := by
        rw [Text.cutAtFirst_eq_none_iff, List.mem_append, not_or]
        exact ⟨Text.cutAtFirst_eq_none_iff.1 hcut, hcolon⟩
      simp [scheme?, hcut, hnone]
  | some parts =>
      obtain ⟨name, rest⟩ := parts
      simp only [scheme?, hcut, Text.cutAtFirst_append_of_eq_some hcut path, Option.bind_eq_bind,
        Option.bind_some]
      split
      · rfl
      · split <;> rfl

/-- Slashes before a host do not reach into a path behind it. -/
theorem afterSlashes?_append (special : Bool) {c : Char} (hc : c ≠ '/' ∧ c ≠ '\\')
    (before rest : List Char) :
    ∃ between : Option (List Char), ∀ query,
      afterSlashes? special (before ++ '/' :: c :: (rest ++ query)) =
        between.map (· ++ c :: (rest ++ query)) := by
  cases special with
  | true =>
      have hdrop : ∀ tail, afterSlashes? true (before ++ '/' :: c :: tail) =
          some ((if (before.dropWhile fun c => c == '/' || c == '\\').isEmpty then []
            else (before.dropWhile fun c => c == '/' || c == '\\') ++ ['/']) ++ c :: tail) := by
        intro tail
        change some ((before ++ '/' :: c :: tail).dropWhile fun c => c == '/' || c == '\\') = _
        rw [List.dropWhile_append]
        split <;> simp [hc]
      exact ⟨some _, fun query => hdrop (rest ++ query)⟩
  | false =>
      rcases before with _ | ⟨a, _ | ⟨b, before⟩⟩
      · exact ⟨none, fun query => by simp [afterSlashes?, hc.1]⟩
      · by_cases ha : a = '/'
        · exact ⟨some [], fun query => by simp [afterSlashes?, ha]⟩
        · exact ⟨none, fun query => by simp [afterSlashes?, ha]⟩
      · by_cases hab : a = '/' ∧ b = '/'
        · exact ⟨some (before ++ ['/']), fun query => by simp [afterSlashes?, hab]⟩
        · refine ⟨none, fun query => ?_⟩
          simp only [afterSlashes?, Bool.false_eq_true, if_false, List.cons_append]
          split
          · next heq =>
              simp only [List.cons.injEq] at heq
              exact absurd ⟨heq.1, heq.2.1⟩ hab
          · rfl

/-- Whether a text is a url does not depend on what follows the host. -/
theorem exists_parse_iff {s : String} : (∃ u, parse s = .ok u) ↔
    ∃ scheme rest, scheme? (trimmed s.toList) = some (scheme, rest) ∧
      ∀ after, afterSlashes? (isSpecial scheme) (rest.takeWhile (· ≠ '#')) = some after →
        ∃ found, authority (isSpecial scheme)
          (after.takeWhile fun c => !endsAuthority (isSpecial scheme) c) = .ok found := by
  unfold parse
  cases hscheme : scheme? (trimmed s.toList) with
  | none => exact iff_of_false (fun ⟨_, h⟩ => by cases h) (fun ⟨_, _, h, _⟩ => by cases h)
  | some parts =>
      obtain ⟨scheme, rest⟩ := parts
      simp only [Option.some.injEq, Prod.mk.injEq]
      cases hslashes : afterSlashes? (isSpecial scheme) (rest.takeWhile (· ≠ '#')) with
      | none =>
          refine iff_of_true ⟨_, rfl⟩ ⟨scheme, rest, ⟨rfl, rfl⟩, fun after h => ?_⟩
          rw [hslashes] at h
          cases h
      | some after =>
          cases hauthority : authority (isSpecial scheme)
              (after.takeWhile fun c => !endsAuthority (isSpecial scheme) c) with
          | error e =>
              refine iff_of_false (fun ⟨_, h⟩ => ?_) ?_
              · simp only [hauthority] at h
                cases h
              · rintro ⟨_, _, ⟨rfl, rfl⟩, h⟩
                obtain ⟨found, hfound⟩ := h after hslashes
                rw [hauthority] at hfound
                cases hfound
          | ok found =>
              refine iff_of_true ?_ ⟨scheme, rest, ⟨rfl, rfl⟩, fun after' h => ?_⟩
              · simp only [hauthority]
                exact ⟨_, rfl⟩
              · obtain rfl := Option.some.inj (hslashes.symm.trans h)
                exact ⟨found, hauthority⟩

theorem takeWhile_append_of_neg {p : Char → Bool} {cs : List Char} {c : Char} (hc : c ∈ cs)
    (hp : ¬ p c = true) (ds : List Char) : (cs ++ ds).takeWhile p = cs.takeWhile p := by
  rw [List.takeWhile_append, if_neg]
  intro hlength
  have hself : cs.takeWhile p = cs :=
    (List.takeWhile_prefix p).eq_of_length hlength
  exact hp (List.takeWhile_eq_self_iff.1 hself c hc)

/-- What is put behind a path with a slash in it, but no end of a scheme or of a path, does not
decide whether a text is a url. -/
theorem exists_parse_append {base query : List Char} {c : Char} (hc : c ≠ '/' ∧ c ≠ '\\')
    (hslash : '/' ∈ path) (hpath : ∀ d ∈ c :: path, IsKept d) (hquery : ∀ d ∈ query, IsKept d)
    (h : ∃ u, parse (String.ofList (base ++ '/' :: c :: path)) = .ok u) :
    ∃ u, parse (String.ofList (base ++ '/' :: c :: (path ++ query))) = .ok u := by
  have hstart : IsKept '/' := by decide
  have hfirst : ∀ d ∈ '/' :: c :: path, IsKept d := List.forall_mem_cons.2 ⟨hstart, hpath⟩
  have hsecond : ∀ d ∈ '/' :: c :: (path ++ query), IsKept d := by
    refine List.forall_mem_cons.2 ⟨hstart, fun d hd => ?_⟩
    rw [← List.cons_append, List.mem_append] at hd
    exact hd.elim (hpath d) (hquery d)
  rw [exists_parse_iff, String.toList_ofList, trimmed_append (List.cons_ne_nil _ _) hfirst,
    scheme?_append hfirst] at h
  rw [exists_parse_iff, String.toList_ofList, trimmed_append (List.cons_ne_nil _ _) hsecond,
    scheme?_append hsecond]
  obtain ⟨scheme, rest, hscheme, h⟩ := h
  obtain ⟨⟨scheme, left⟩, hleft, hparts⟩ := Option.map_eq_some_iff.1 hscheme
  obtain ⟨rfl, rfl⟩ := Prod.mk.inj hparts
  refine ⟨scheme, left ++ '/' :: c :: (path ++ query), by rw [hleft]; rfl, fun after hafter => ?_⟩
  by_cases hhash : '#' ∈ left
  · -- All of the path belongs to the fragment.
    rw [takeWhile_append_of_neg hhash (by decide)] at hafter h
    exact h after hafter
  · have hwhole : ∀ ds, (∀ d ∈ ds, IsKept d) →
        (left ++ ds).takeWhile (fun d => decide (d ≠ '#')) = left ++ ds := by
      intro ds hds
      rw [List.takeWhile_eq_self_iff]
      intro d hd
      refine decide_eq_true ?_
      rcases List.mem_append.1 hd with hd | hd
      · exact fun he => hhash (he ▸ hd)
      · exact (hds d hd).2.2
    rw [hwhole _ hsecond] at hafter
    rw [hwhole _ hfirst] at h
    obtain ⟨between, hslashes⟩ :=
      afterSlashes?_append (isSpecial scheme) hc left path
    rw [hslashes query] at hafter
    obtain ⟨between, rfl, rfl⟩ := Option.map_eq_some_iff.1 hafter
    obtain ⟨found, hfound⟩ := h (between ++ c :: path) (by simpa using hslashes [])
    have hmem : '/' ∈ between ++ c :: path :=
      List.mem_append_right _ (List.mem_cons_of_mem c hslash)
    refine ⟨found, ?_⟩
    rw [← List.cons_append, ← List.append_assoc,
      takeWhile_append_of_neg hmem (by simp [endsAuthority])]
    exact hfound

end Url

namespace Client

open Text.Form

/-- A path below a base url: two segments or more, the first not empty, without anything that
could end a scheme or a path. -/
structure IsBelow (path : String) : Prop where
  first : ∃ c rest, path.toList = c :: rest ∧ c ≠ '/' ∧ c ≠ '\\' ∧ '/' ∈ rest
  kept : ∀ c ∈ path.toList, Url.IsKept c

theorem toList_join {path : String} (habsolute : ¬ isAbsolute path = true) {d : Char}
    {rest : List Char} (hpath : path.toList = d :: rest) (hd : d ≠ '/') (c : Client) :
    (c.join path).toList = (withoutLastSlashes c.baseUrl).toList ++ '/' :: path.toList := by
  have hempty : ¬ path.isEmpty = true := by
    rw [String.isEmpty_iff, ← String.toList_inj, hpath]
    exact List.cons_ne_nil d rest
  have hslashes : withoutFirstSlashes path = path := by
    rw [withoutFirstSlashes, hpath, List.dropWhile_cons_of_neg (by simpa using hd), ← hpath,
      String.ofList_toList]
  rw [Client.join, if_neg habsolute, if_neg hempty, hslashes]
  simp

namespace IsBelow

variable {path : String}

theorem toList_join (h : IsBelow path) (c : Client) :
    (c.join path).toList = (withoutLastSlashes c.baseUrl).toList ++ '/' :: path.toList := by
  obtain ⟨d, rest, hpath, hd, -, -⟩ := h.first
  have hcolon : ':' ∉ path.toList := fun hmem => (h.kept ':' hmem).2.1 rfl
  refine Client.toList_join ?_ hpath hd c
  rw [isAbsolute, Bool.or_eq_true, List.isPrefixOf_iff_prefix, List.isPrefixOf_iff_prefix]
  exact fun hscheme => hcolon (hscheme.elim (·.subset (by decide)) (·.subset (by decide)))

/-- What a query adds to such a path. -/
theorem exists_withQuery {query : String} (hquery : ∀ c ∈ query.toList, Url.IsKept c)
    (path : String) : ∃ added, (withQuery path query).toList = path.toList ++ added ∧
      ∀ c ∈ added, Url.IsKept c := by
  rw [withQuery]
  split
  · exact ⟨[], (List.append_nil _).symm, fun c hc => (List.not_mem_nil hc).elim⟩
  · split
    · refine ⟨'&' :: query.toList, by simp, List.forall_mem_cons.2 ⟨by decide, hquery⟩⟩
    · refine ⟨'?' :: query.toList, by simp, List.forall_mem_cons.2 ⟨by decide, hquery⟩⟩

theorem withQuery (h : IsBelow path) {query : String}
    (hquery : ∀ c ∈ query.toList, Url.IsKept c) : IsBelow (withQuery path query) := by
  obtain ⟨added, hadded, hkept⟩ := exists_withQuery hquery path
  obtain ⟨d, rest, hpath, hd, hd', hslash⟩ := h.first
  refine ⟨⟨d, rest ++ added, ?_, hd, hd', List.mem_append_left added hslash⟩, ?_⟩
  · rw [hadded, hpath, List.cons_append]
  · rw [hadded]
    exact fun c hc => (List.mem_append.1 hc).elim (h.kept c) (hkept c)

end IsBelow

theorem url_eq_ok_iff {c : Client} {path url : String} :
    c.url path = .ok url ↔ url = c.join path ∧ ∃ u, Url.parse (c.join path) = .ok u := by
  unfold Client.url
  cases hparse : Url.parse (c.join path) with
  | error e => simp
  | ok u => simp [eq_comm]

/-- A client that builds a url for a path builds one with every query behind it. -/
theorem url_withQuery {c : Client} {path query url : String} (hbelow : IsBelow path)
    (hquery : ∀ d ∈ query.toList, Url.IsKept d) (h : c.url path = .ok url) :
    c.url (withQuery path query) = .ok (c.join (withQuery path query)) := by
  obtain ⟨added, hadded, hkept⟩ := IsBelow.exists_withQuery hquery path
  obtain ⟨d, rest, hpath, hd, hd', hslash⟩ := hbelow.first
  obtain ⟨-, hparse⟩ := url_eq_ok_iff.1 h
  refine url_eq_ok_iff.2 ⟨rfl, ?_⟩
  have hfirst : c.join path =
      String.ofList ((withoutLastSlashes c.baseUrl).toList ++ '/' :: d :: rest) := by
    rw [← hpath, ← hbelow.toList_join c, String.ofList_toList]
  have hsecond : c.join (withQuery path query) =
      String.ofList ((withoutLastSlashes c.baseUrl).toList ++ '/' :: d :: (rest ++ added)) := by
    rw [← List.cons_append, ← hpath, ← hadded, ← (hbelow.withQuery hquery).toList_join c,
      String.ofList_toList]
  rw [hfirst] at hparse
  rw [hsecond]
  exact Url.exists_parse_append ⟨hd, hd'⟩ hslash (hpath ▸ hbelow.kept) hkept hparse

end Client

end Dataspace.Http
