import Dataspace.Proofs.Task.Asking
import Dataspace.Proofs.Text.Lowercase
import Dataspace.Twin.Search
/-!
Searching a registry for a submodel.  Shells are listed one after the other, each in what the
calls before have left of the registry, until one has a target.  Main statement:
`findSubmodel_first`.  What is wanted and the short ids are compared in lower case, each as a
whole: a capital sigma at the end of what is wanted is another letter than within a short id.
-/

namespace Dataspace.Registry

/-! ## Within one shell -/

/-- The short id of a submodel contains what is wanted, both in lower case. -/
def Matches (wanted : String) (s : SubmodelDescriptor) : Prop :=
  Text.lowercase wanted.toList <:+: Text.lowercase s.idShort.toList

instance (wanted : String) : DecidablePred (Matches wanted) := fun s =>
  inferInstanceAs (Decidable (Text.lowercase wanted.toList <:+: Text.lowercase s.idShort.toList))

/-- The endpoints of matching submodels, in order. -/
def candidates (wanted : String) (found : List SubmodelDescriptor) : List Endpoint :=
  (found.filter fun s => decide (Matches wanted s)).flatMap SubmodelDescriptor.endpoints

/-- The first endpoint that has a target has this one; or none has any. -/
inductive First : List Endpoint → Option Subprotocol.Target → Prop
  | here {t : Subprotocol.Target} {before after : List Endpoint} {e : Endpoint}
      (hbefore : ∀ e' ∈ before, e'.target? = none) (he : e.target? = some t) :
      First (before ++ e :: after) (some t)
  | nowhere {es : List Endpoint} (h : ∀ e ∈ es, e.target? = none) : First es none

variable {wanted : String} {found : List SubmodelDescriptor} {es es' : List Endpoint}
  {t : Subprotocol.Target} {t? : Option Subprotocol.Target}

theorem first_iff : First es t? ↔ es.findSome? Endpoint.target? = t? := by
  constructor
  · rintro (⟨hbefore, he⟩ | h)
    · exact List.findSome?_eq_some_iff.2 ⟨_, _, _, rfl, he, hbefore⟩
    · exact List.findSome?_eq_none_iff.2 h
  · rintro rfl
    cases hfirst : es.findSome? Endpoint.target? with
    | none => exact .nowhere (List.findSome?_eq_none_iff.1 hfirst)
    | some t =>
        obtain ⟨before, e, after, rfl, he, hbefore⟩ := List.findSome?_eq_some_iff.1 hfirst
        exact .here hbefore he

theorem First.append_some (h : First es (some t)) (es' : List Endpoint) :
    First (es ++ es') (some t) := by
  obtain ⟨hbefore, he⟩ := h
  rw [List.append_assoc, List.cons_append]
  exact .here hbefore he

theorem First.append_none (h : First es none) (h' : First es' t?) : First (es ++ es') t? := by
  rw [first_iff] at h h' ⊢
  rw [List.findSome?_append, h, h', Option.none_or]

theorem containsIgnoringCase_iff {s : SubmodelDescriptor} :
    Text.containsIgnoringCase s.idShort wanted = decide (Matches wanted s) := by
  rw [Bool.eq_iff_iff, decide_eq_true_iff]
  exact Text.contains_iff

theorem firstTarget?_first : First (candidates wanted found) (firstTarget? wanted found) := by
  have hsame : firstTarget? wanted found =
      (candidates wanted found).findSome? Endpoint.target? := by
    simp only [firstTarget?, candidates, containsIgnoringCase_iff]
  exact first_iff.2 hsame.symm

/-- The part stands in the text, each letter in some case. -/
def ContainsButForCase (text part : String) : Prop :=
  ∃ piece, piece <:+: text.toList ∧
    piece.flatMap Text.lowerChar = part.toList.flatMap Text.lowerChar

/-- There is a letter whose lower case depends on those around it, or is more than one letter. -/
def Peculiar (text : String) : Prop :=
  'Σ' ∈ text.toList ∨ 'İ' ∈ text.toList

theorem matches_iff {s : SubmodelDescriptor} (hwanted : ¬ Peculiar wanted)
    (hshort : ¬ Peculiar s.idShort) : Matches wanted s ↔ ContainsButForCase s.idShort wanted :=
  Text.lowercase_infix_iff (fun h => hwanted (.inl h)) (fun h => hshort (.inl h))
    fun h => hshort (.inr h)

/-! ## One shell after the other -/

/-- A shell, and what is said when its submodels are listed. -/
structure Listing where
  shell : String
  answer : Except RemoteError (List SubmodelDescriptor)

namespace Listing

def Succeeds (a : Listing) : Prop :=
  ∃ found, a.answer = .ok found

def Has (wanted : String) (a : Listing) (t? : Option Subprotocol.Target) : Prop :=
  ∃ found, a.answer = .ok found ∧ First (candidates wanted found) t?

/-- The endpoints of matching submodels of the shell, as far as they are told. -/
def endpoints (wanted : String) (a : Listing) : List Endpoint :=
  match a.answer with
  | .ok found => candidates wanted found
  | .error _ => []

theorem Has.succeeds {a : Listing} (h : a.Has wanted t?) : a.Succeeds :=
  let ⟨found, hok, _⟩ := h
  ⟨found, hok⟩

theorem Has.first {a : Listing} (h : a.Has wanted t?) : First (a.endpoints wanted) t? := by
  obtain ⟨found, hok, hfirst⟩ := h
  rw [endpoints, hok]
  exact hfirst

theorem Has.unique {a : Listing} {t?' : Option Subprotocol.Target} (h : a.Has wanted t?)
    (h' : a.Has wanted t?') : t?' = t? :=
  (first_iff.1 h'.first).symm.trans (first_iff.1 h.first)

end Listing

/-- Which shells are listed, and what comes of it, if listing them says this. -/
inductive Searched (wanted : String) :
    List Listing → List Listing → Except RemoteError (Option Subprotocol.Target) → Prop
  | exhausted : Searched wanted [] [] (.ok none)
  | failed {a : Listing} {e : RemoteError} {rest : List Listing} (h : a.answer = .error e) :
      Searched wanted (a :: rest) [a] (.error e)
  | ended {a : Listing} {t : Subprotocol.Target} {rest : List Listing}
      (h : a.Has wanted (some t)) : Searched wanted (a :: rest) [a] (.ok (some t))
  | next {a : Listing} {rest made : List Listing}
      {r : Except RemoteError (Option Subprotocol.Target)} (h : a.Has wanted none)
      (hrest : Searched wanted rest made r) : Searched wanted (a :: rest) (a :: made) r

variable {said made : List Listing} {r : Except RemoteError (Option Subprotocol.Target)}

theorem exists_searched (wanted : String) (said : List Listing) :
    ∃ made r, Searched wanted said made r := by
  induction said with
  | nil => exact ⟨_, _, .exhausted⟩
  | cons a said ih =>
      cases hanswer : a.answer with
      | error e => exact ⟨_, _, .failed hanswer⟩
      | ok found =>
          have hfirst : First (candidates wanted found) (firstTarget? wanted found) :=
            firstTarget?_first
          cases htarget : firstTarget? wanted found with
          | some t => exact ⟨_, _, .ended ⟨found, hanswer, htarget ▸ hfirst⟩⟩
          | none =>
              obtain ⟨made, r, h⟩ := ih
              exact ⟨_, _, .next ⟨found, hanswer, htarget ▸ hfirst⟩ h⟩

/-- What a search comes to, by what listing the shells says. -/
structure FindsFirst (wanted : String) (said made : List Listing)
    (r : Except RemoteError (Option Subprotocol.Target)) : Prop where
  inOrder : made <+: said
  /-- Where no list fails, the target of the first endpoint of all that has one is found. -/
  first : (∀ a ∈ made, a.Succeeds) →
    ∃ t?, r = .ok t? ∧ First (said.flatMap (Listing.endpoints wanted)) t?
  /-- No shell is listed after the one with the target. -/
  stops : ∀ t, r = .ok (some t) →
    ∃ before a, made = before ++ [a] ∧ a.Has wanted (some t) ∧ ∀ b ∈ before, b.Has wanted none
  /-- The first list that fails is an error, unless there is a target before it. -/
  fails : ∀ before a e after, said = before ++ a :: after → a.answer = .error e →
    (∀ b ∈ before, b.Succeeds) →
    ((∃ b ∈ before, ∃ t, b.Has wanted (some t)) → ∃ t, r = .ok (some t)) ∧
    ((¬ ∃ b ∈ before, ∃ t, b.Has wanted (some t)) → r = .error e ∧ made = before ++ [a])

namespace Searched

theorem inOrder (h : Searched wanted said made r) : made <+: said := by
  induction h with
  | exhausted => exact List.prefix_rfl
  | failed | ended _ => exact List.prefix_cons_inj _ |>.2 (List.nil_prefix)
  | next _ _ ih => exact (List.prefix_cons_inj _).2 ih

theorem first (h : Searched wanted said made r) (hmade : ∀ a ∈ made, a.Succeeds) :
    ∃ t?, r = .ok t? ∧ First (said.flatMap (Listing.endpoints wanted)) t? := by
  induction h with
  | exhausted => exact ⟨none, rfl, .nowhere nofun⟩
  | failed h =>
      obtain ⟨found, hok⟩ := hmade _ List.mem_cons_self
      cases h.symm.trans hok
  | ended h => exact ⟨_, rfl, h.first.append_some _⟩
  | next h _ ih =>
      obtain ⟨t?, hr, hrest⟩ := ih fun b hb => hmade b (List.mem_cons_of_mem _ hb)
      exact ⟨t?, hr, h.first.append_none hrest⟩

theorem stops (h : Searched wanted said made r) (hr : r = .ok (some t)) :
    ∃ before a, made = before ++ [a] ∧ a.Has wanted (some t) ∧
      ∀ b ∈ before, b.Has wanted none := by
  induction h with
  | exhausted => cases hr
  | failed => cases hr
  | @ended a t rest h =>
      cases hr
      exact ⟨[], a, rfl, h, nofun⟩
  | @next a rest made r h _ ih =>
      obtain ⟨before, b, rfl, hb, hbefore⟩ := ih hr
      exact ⟨a :: before, b, rfl, hb, List.forall_mem_cons.2 ⟨h, hbefore⟩⟩

theorem fails (h : Searched wanted said made r) {before after : List Listing} {a : Listing}
    {e : RemoteError} (hsaid : said = before ++ a :: after) (ha : a.answer = .error e)
    (hbefore : ∀ b ∈ before, b.Succeeds) :
    ((∃ b ∈ before, ∃ t, b.Has wanted (some t)) → ∃ t, r = .ok (some t)) ∧
      ((¬ ∃ b ∈ before, ∃ t, b.Has wanted (some t)) → r = .error e ∧ made = before ++ [a]) := by
  induction h generalizing before with
  | exhausted => cases before <;> cases hsaid
  | @failed b e' rest h =>
      cases before with
      | nil =>
          obtain ⟨rfl, rfl⟩ := List.cons.inj hsaid
          obtain rfl := Except.error.inj (h.symm.trans ha)
          exact ⟨fun ⟨b, hb, _⟩ => (List.not_mem_nil hb).elim, fun _ => ⟨rfl, rfl⟩⟩
      | cons c before =>
          obtain ⟨rfl, -⟩ := List.cons.inj hsaid
          obtain ⟨found, hok⟩ := hbefore b List.mem_cons_self
          cases h.symm.trans hok
  | @ended b t rest h =>
      cases before with
      | nil =>
          obtain ⟨rfl, rfl⟩ := List.cons.inj hsaid
          obtain ⟨found, hok⟩ := h.succeeds
          cases ha.symm.trans hok
      | cons c before =>
          obtain ⟨rfl, -⟩ := List.cons.inj hsaid
          exact ⟨fun _ => ⟨t, rfl⟩, fun hnone => (hnone ⟨b, List.mem_cons_self, t, h⟩).elim⟩
  | @next b rest made r h _ ih =>
      cases before with
      | nil =>
          obtain ⟨rfl, rfl⟩ := List.cons.inj hsaid
          obtain ⟨found, hok⟩ := h.succeeds
          cases ha.symm.trans hok
      | cons c before =>
          obtain ⟨rfl, hrest⟩ := List.cons.inj hsaid
          obtain ⟨hsome, hnone⟩ := ih hrest fun c hc => hbefore c (List.mem_cons_of_mem _ hc)
          constructor
          · rintro ⟨c, hc, t, ht⟩
            rcases List.mem_cons.1 hc with rfl | hc
            · cases h.unique ht
            · exact hsome ⟨c, hc, t, ht⟩
          · intro hno
            obtain ⟨hr, rfl⟩ := hnone fun ⟨c, hc, hhas⟩ =>
              hno ⟨c, List.mem_cons_of_mem _ hc, hhas⟩
            exact ⟨hr, rfl⟩

theorem findsFirst (h : Searched wanted said made r) : FindsFirst wanted said made r :=
  ⟨h.inOrder, h.first, fun _ => h.stops, fun _ _ _ _ => h.fails⟩

end Searched

/-! ## The calls -/

section Calls

variable {S : Surroundings interface} {M : Memory} [DecidableEq M.Key] {shared : Shared S}
  {part : String}

/-- The shells would be listed so, were all of them listed one after the other. -/
inductive Tells : Shared S → List Listing → Prop
  | nothing {shared : Shared S} : Tells shared []
  | listing {shared : Shared S} {a : Listing} {rest : List Listing}
      (h : (shared.answer (Call.submodels a.shell)).2 = .ok a.answer)
      (hrest : Tells (shared.answer (Call.submodels a.shell)).1 rest) : Tells shared (a :: rest)

theorem Tells.unique {said' : List Listing} (h : Tells shared said) (h' : Tells shared said')
    (hshells : said'.map Listing.shell = said.map Listing.shell) : said' = said := by
  induction h generalizing said' with
  | nothing => exact List.map_eq_nil_iff.1 hshells
  | @listing shared a rest hanswer _ ih =>
      cases h' with
      | nothing => cases hshells
      | @listing _ a' rest' hanswer' hrest' =>
          obtain ⟨hshell, hrest⟩ := List.cons.inj hshells
          obtain ⟨id, told⟩ := a
          obtain ⟨id', told'⟩ := a'
          obtain rfl : id' = id := hshell
          obtain rfl : told' = told := Except.ok.inj (hanswer'.symm.trans hanswer)
          rw [ih hrest' hrest]

/-- A registry that answers all calls has something to tell of all shells. -/
theorem exists_tells (hanswers : S.Answers) (hsteady : ∀ c : Call, ¬ S.Fails c)
    (shells : List String) (shared : Shared S) :
    ∃ said, said.map Listing.shell = shells ∧ Tells shared said := by
  induction shells generalizing shared with
  | nil => exact ⟨[], rfl, .nothing⟩
  | cons id shells ih =>
      obtain ⟨answer, -, hanswer, -⟩ :=
        Shared.exists_answer hanswers (hsteady (.submodels id)) shared
      obtain ⟨said, hshells, hsaid⟩ := ih (shared.answer (Call.submodels id)).1
      exact ⟨⟨id, answer⟩ :: said, congrArg (id :: ·) hshells, .listing hanswer hsaid⟩

/-- What is made of a list that has no target is the search among the other shells. -/
theorem leads_searchShells {a : Listing} {rest : List String} {l last : Lone S M}
    {calls : List Call}
    (hanswer : (l.shared.answer (Call.submodels a.shell)).2 = .ok a.answer) (h : a.Has wanted t?)
    (hrest : (match t? with
        | some t => pure (.ok (some t))
        | none => searchShells wanted rest : Work M _).Leads
      { l with shared := (l.shared.answer (Call.submodels a.shell)).1 } last calls r) :
    (searchShells wanted (a.shell :: rest)).Leads l last (Call.submodels a.shell :: calls) r := by
  obtain ⟨found, hok, hfirst⟩ := h
  have htarget : firstTarget? wanted found = t? :=
    (first_iff.1 firstTarget?_first).symm.trans (first_iff.1 hfirst)
  refine (Program.leads_call hanswer).bind ?_
  cases t? <;> simpa only [hok, htarget] using hrest

theorem Searched.leads (h : Searched wanted said made r) {l : Lone S M}
    (hsaid : Tells l.shared said) :
    ∃ last, (searchShells wanted (said.map Listing.shell)).Leads l last
      (made.map fun a => Call.submodels a.shell) r := by
  induction h generalizing l with
  | exhausted => exact ⟨l, Program.leads_pure _ _⟩
  | @failed a e rest h =>
      obtain _ | ⟨hanswer, -⟩ := hsaid
      have hcall := Program.leads_call (M := M) hanswer
      rw [h] at hcall
      exact ⟨_, hcall.bind_quiet (Program.leads_pure ..)⟩
  | @ended a t rest h =>
      obtain _ | ⟨hanswer, -⟩ := hsaid
      exact ⟨_, leads_searchShells hanswer h (Program.leads_pure ..)⟩
  | @next a rest made r h _ ih =>
      obtain _ | ⟨hanswer, hrest⟩ := hsaid
      obtain ⟨last, hlast⟩ :=
        ih (l := { l with shared := (l.shared.answer (Call.submodels a.shell)).1 }) hrest
      exact ⟨last, leads_searchShells hanswer h hlast⟩

def partLookup (part : String) : Call :=
  .lookup [⟨"manufacturerPartId", part⟩]

theorem Searched.comesTo (h : Searched wanted said made r) (hanswers : S.Answers)
    (hshells : (shared.answer (partLookup part)).2 = .ok (.ok (said.map Listing.shell)))
    (hsaid : Tells (shared.answer (partLookup part)).1 said) :
    (findSubmodel part wanted : Work M _).ComesTo shared
      (partLookup part :: made.map fun a => Call.submodels a.shell) r := by
  refine Program.comesTo_of_course hanswers fun locks => ?_
  obtain ⟨last, hlast⟩ := h.leads
    (l := (⟨(shared.answer (partLookup part)).1, locks, none⟩ : Lone S M)) hsaid
  exact ⟨last, (Program.leads_call (l := ⟨shared, locks, none⟩) hshells).bind hlast⟩

/-- A search by itself on a registry that answers all calls.  The shells of the part are listed
in the order of the look-up, and the first endpoint of a matching submodel that has a target
decides: what comes after it does not matter, and a list before it that fails is an error.  A
submodel matches just if its short id contains what is wanted but for case, as long as neither
has a peculiar letter. -/
theorem findSubmodel_first (hanswers : S.Answers) (hsteady : ∀ c : Call, ¬ S.Fails c)
    (shared : Shared S) (part wanted : String) :
    (∀ s, ¬ Peculiar wanted → ¬ Peculiar s.idShort →
      (Matches wanted s ↔ ContainsButForCase s.idShort wanted)) ∧
    ∃ answer, (shared.answer (partLookup part)).2 = .ok answer ∧
      (∀ e, answer = .error e →
        (findSubmodel part wanted : Work M _).ComesTo shared [partLookup part] (.error e)) ∧
      ∀ shells, answer = .ok shells → ∃ said made r, said.map Listing.shell = shells ∧
        Tells (shared.answer (partLookup part)).1 said ∧ FindsFirst wanted said made r ∧
        (findSubmodel part wanted : Work M _).ComesTo shared
          (partLookup part :: made.map fun a => Call.submodels a.shell) r := by
  obtain ⟨answer, -, hanswer, -⟩ :=
    Shared.exists_answer hanswers (hsteady (partLookup part)) shared
  refine ⟨fun s => matches_iff, answer, hanswer, ?_, ?_⟩
  · rintro e rfl
    refine Program.comesTo_of_course hanswers fun locks => ?_
    exact ⟨_, (Program.leads_call (l := ⟨shared, locks, none⟩) hanswer).bind_quiet
      (Program.leads_pure ..)⟩
  · rintro shells rfl
    obtain ⟨said, rfl, hsaid⟩ :=
      exists_tells hanswers hsteady shells (shared.answer (partLookup part)).1
    obtain ⟨made, r, h⟩ := exists_searched wanted said
    exact ⟨said, made, r, rfl, hsaid, h.findsFirst, h.comesTo hanswers hanswer hsaid⟩

end Calls

/-! ### Shells on a shelf -/

namespace Shelf

def missing : RemoteError :=
  .status 404 "fake://registry" "not found"

/-- A registry that finds these shells for every part, and always lists them so. -/
def surroundings (listings : List Listing) : Surroundings interface where
  State := Unit
  receive
    | world, .lookup _ => (world, .reply (.ok (listings.map Listing.shell)))
    | world, .submodels id => (world, .reply
        (((listings.find? (·.shell = id)).map Listing.answer).getD (.error missing)))
    | world, .createShell _ => (world, .reply (.error missing))
    | world, .createSubmodel _ _ => (world, .reply (.error missing))
  resume
    | world, .lookup _ | world, .submodels _ | world, .createShell _ | world, .createSubmodel _ _ =>
      (world, .reply (.error missing))

def start (listings : List Listing) : Shared (surroundings listings) :=
  ⟨(), 0, 0, 0⟩

theorem answers (listings : List Listing) : (surroundings listings).Answers := by
  intro world c millis h
  cases c <;> cases h

theorem steady (listings : List Listing) (c : Call) : ¬ (surroundings listings).Fails c := by
  rintro ⟨world, message, h | h⟩ <;> cases c <;> cases h

def submodel (idShort : String) (body : Option String) : SubmodelDescriptor :=
  ⟨"id of " ++ idShort, idShort, SemanticId.global "urn:x",
    [{ Endpoint.http "https://p.example/data" with subprotocolBody := body }]⟩

/-- Only the second of the submodels has a target. -/
def crate : List SubmodelDescriptor :=
  [submodel "SerialPartTypization" none,
    submodel "serialparttypization" (some "id=a1;dspEndpoint=https://p.example")]

/-- The second shell cannot be listed. -/
def crates : List Listing :=
  [⟨"s1", .ok crate⟩, ⟨"s2", .error (.status 500 "fake://registry/s2" "down")⟩]

theorem crates_tells : Tells ((start crates).answer (partLookup "M1")).1 crates :=
  .listing rfl (.listing rfl .nothing)

theorem crate_has : (Listing.mk "s1" (.ok crate)).Has "SerialPart"
    (some ⟨"a1", "https://p.example"⟩) :=
  ⟨crate, rfl, first_iff.2 (by decide +kernel)⟩

/-- The failure after the target is not seen. -/
theorem crates_found : (surroundings crates).Answers ∧
    (∀ c : Call, ¬ (surroundings crates).Fails c) ∧
    (findSubmodel "M1" "SerialPart" : Work memory _).ComesTo (start crates)
      [partLookup "M1", Call.submodels "s1"] (.ok (some ⟨"a1", "https://p.example"⟩)) := by
  refine ⟨answers crates, steady crates, ?_⟩
  obtain ⟨-, answer, hanswer, -, hshells⟩ :=
    findSubmodel_first (M := memory) (answers crates) (steady crates)
      (start crates) "M1" "SerialPart"
  obtain rfl : Except.ok ["s1", "s2"] = answer := Except.ok.inj hanswer
  obtain ⟨said, made, r, hmap, hsaid, hfinds, hcomes⟩ := hshells _ rfl
  obtain rfl : said = crates := crates_tells.unique hsaid hmap
  have hbefore : ∀ a ∈ [Listing.mk "s1" (.ok crate)], a.Succeeds :=
    List.forall_mem_singleton.2 crate_has.succeeds
  obtain ⟨t, rfl⟩ := (hfinds.fails _ _ _ [] rfl rfl hbefore).1
    ⟨_, List.mem_singleton_self _, _, crate_has⟩
  obtain ⟨before, a, rfl, ha, hnone⟩ := hfinds.stops t rfl
  cases before with
  | nil =>
      obtain ⟨rfl, -⟩ := List.cons_prefix_cons.1 hfinds.inOrder
      obtain rfl := Option.some.inj (crate_has.unique ha)
      exact hcomes
  | cons b before =>
      obtain ⟨rfl, -⟩ := List.cons_prefix_cons.1 hfinds.inOrder
      cases crate_has.unique (hnone _ List.mem_cons_self)

/-- The short id begins with a word that ends in a capital sigma. -/
def signpost : SubmodelDescriptor :=
  submodel "ΟΔΟΣΗΜΑΝΣΗ" (some "id=a1;dspEndpoint=https://p.example")

def street : List Listing :=
  [⟨"s1", .ok [signpost]⟩]

/-- By itself the word has another lower case than within the short id, so it is not found there. -/
theorem street_unfound : "ΟΔΟΣ".toList <+: signpost.idShort.toList ∧
    (∃ e ∈ signpost.endpoints, e.target? = some ⟨"a1", "https://p.example"⟩) ∧
    Tells ((start street).answer (partLookup "M1")).1 street ∧
    (findSubmodel "M1" "ΟΔΟΣ" : Work memory _).ComesTo (start street)
      [partLookup "M1", Call.submodels "s1"] (.ok none) := by
  have htells : Tells ((start street).answer (partLookup "M1")).1 street :=
    .listing rfl .nothing
  have hnone : (Listing.mk "s1" (.ok [signpost])).Has "ΟΔΟΣ" none :=
    ⟨[signpost], rfl, first_iff.2 (by decide +kernel)⟩
  refine ⟨by decide, ⟨_, List.mem_singleton_self _, by decide +kernel⟩, htells, ?_⟩
  exact (Searched.next hnone .exhausted).comesTo (answers street) rfl htells

end Shelf

end Dataspace.Registry
