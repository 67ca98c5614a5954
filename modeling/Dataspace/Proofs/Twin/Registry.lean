import Dataspace.Proofs.Task.Solo
import Dataspace.Scripted.Registry
import Dataspace.Twin.Reconcile
/-!
What calls make of a twin registry in memory.  A fault leaves the
twins alone; a shell that is created is found from then on by the
identifiers it carries; a submodel changes nothing of what is found.
-/

namespace Dataspace.Scripted.Registry

open Dataspace.Registry (Call Answer)

variable {r r' r'' : Registry}

def empty : Registry where
  shells := []
  conflictOnCreate := false
  shellsCreated := 0
  submodelsCreated := 0
  faults := .ofList []

/-- The same twins, whatever faults are still to come. -/
structure Alike (r r' : Registry) : Prop where
  shells : r'.shells = r.shells
  shellsCreated : r'.shellsCreated = r.shellsCreated
  submodelsCreated : r'.submodelsCreated = r.submodelsCreated

theorem Alike.refl (r : Registry) : r.Alike r :=
  ⟨rfl, rfl, rfl⟩

theorem Alike.trans (first : r.Alike r') (second : r'.Alike r'') : r.Alike r'' :=
  ⟨second.shells.trans first.shells, second.shellsCreated.trans first.shellsCreated,
    second.submodelsCreated.trans first.submodelsCreated⟩

theorem Alike.lookup (h : r.Alike r') (ids : List SpecificAssetId) :
    r'.lookup ids = r.lookup ids := by
  rw [Registry.lookup, Registry.lookup, h.shells]

theorem Alike.submodels (h : r.Alike r') (shellId : String) :
    r'.submodels shellId = r.submodels shellId := by
  rw [Registry.submodels, Registry.submodels, h.shells]

/-- The identifiers of each shell, by its id. -/
def index (r : Registry) : List (String × List SpecificAssetId) :=
  r.shells.map fun shell => (shell.id, shell.specificAssetIds)

/-- What is found depends on the identifiers alone. -/
theorem lookup_eq (r : Registry) (ids : List SpecificAssetId) :
    r.lookup ids = (r.index.filter fun (_, carried) => ids.all carried.contains).map (·.1) := by
  simp only [Registry.lookup, index, List.filter_map, List.map_map]
  rfl

theorem lookup_congr (h : r'.index = r.index) (ids : List SpecificAssetId) :
    r'.lookup ids = r.lookup ids := by
  rw [lookup_eq, lookup_eq, h]

theorem all_contains_iff {ids carried : List SpecificAssetId} :
    ids.all carried.contains = true ↔ ids ⊆ carried := by
  rw [List.all_eq_true]
  constructor
  · intro h id hid
    exact List.contains_iff_mem.1 (h id hid)
  · intro h id hid
    exact List.contains_iff_mem.2 (h hid)

theorem mem_lookup_iff {ids : List SpecificAssetId} {shellId : String} :
    shellId ∈ r.lookup ids ↔ ∃ shell ∈ r.shells, shell.id = shellId ∧
      ids ⊆ shell.specificAssetIds := by
  simp only [Registry.lookup, carries, List.mem_map, List.mem_filter, all_contains_iff]
  constructor
  · rintro ⟨shell, ⟨hmem, hids⟩, hid⟩
    exact ⟨shell, hmem, hid, hids⟩
  · rintro ⟨shell, hmem, hid, hids⟩
    exact ⟨shell, ⟨hmem, hids⟩, hid⟩

/-- A shell with a submodel list is there. -/
theorem exists_submodels {ids : List SpecificAssetId} {shellId : String}
    (h : shellId ∈ r.lookup ids) : ∃ found, r.submodels shellId = .ok found := by
  obtain ⟨shell, hmem, hid, -⟩ := mem_lookup_iff.1 h
  cases hfind : r.shells.find? (·.id = shellId) with
  | none => simpa [hid] using List.find?_eq_none.1 hfind shell hmem
  | some found => exact ⟨found.submodels, by rw [Registry.submodels, hfind]⟩

/-! ## Creating -/

/-- One shell more. -/
structure Gains (r : Registry) (shell : ShellDescriptor) (r' : Registry) : Prop where
  shells : r'.shells = r.shells ++ [shell]
  shellsCreated : r'.shellsCreated = r.shellsCreated + 1
  submodelsCreated : r'.submodelsCreated = r.submodelsCreated

theorem Gains.index {shell : ShellDescriptor} (h : r.Gains shell r') :
    r'.index = r.index ++ [(shell.id, shell.specificAssetIds)] := by
  simp [Registry.index, h.shells]

/-- A new shell is found by whatever it carries. -/
theorem lookup_of_index {shellId : String} {carried : List SpecificAssetId}
    (h : r'.index = r.index ++ [(shellId, carried)]) (ids : List SpecificAssetId) :
    r'.lookup ids = r.lookup ids ++ if ids ⊆ carried then [shellId] else [] := by
  rw [lookup_eq, lookup_eq, h, List.filter_append, List.map_append]
  congr 1
  by_cases hids : ids ⊆ carried
  · simp [all_contains_iff.2 hids, hids]
  · simp [mt all_contains_iff.1 hids, hids]

theorem Gains.lookup {shell : ShellDescriptor} (h : r.Gains shell r')
    (ids : List SpecificAssetId) :
    r'.lookup ids = r.lookup ids ++ if ids ⊆ shell.specificAssetIds then [shell.id] else [] :=
  lookup_of_index h.index ids

theorem Alike.gains {shell : ShellDescriptor} (h : r.Alike r') (hgains : r'.Gains shell r'') :
    r.Gains shell r'' := by
  obtain ⟨hshells, hcreated, hsubmodels⟩ := hgains
  rw [h.shells] at hshells
  rw [h.shellsCreated] at hcreated
  rw [h.submodelsCreated] at hsubmodels
  exact ⟨hshells, hcreated, hsubmodels⟩

/-- One submodel more on the first shell with this id. -/
structure Extends (r : Registry) (shellId : String) (submodel : SubmodelDescriptor)
    (r' : Registry) : Prop where
  index : r'.index = r.index
  submodels : ∀ found, r.submodels shellId = .ok found →
    r'.submodels shellId = .ok (found ++ [submodel])
  others : ∀ other, other ≠ shellId → r'.submodels other = r.submodels other
  shellsCreated : r'.shellsCreated = r.shellsCreated
  submodelsCreated : r'.submodelsCreated = r.submodelsCreated + 1

theorem Alike.index (h : r.Alike r') : r'.index = r.index := by
  rw [Registry.index, Registry.index, h.shells]

theorem Alike.extends {shellId : String} {submodel : SubmodelDescriptor} (h : r.Alike r')
    (hextends : r'.Extends shellId submodel r'') : r.Extends shellId submodel r'' := by
  obtain ⟨hindex, hsubmodels, hothers, hcreated, hsubmodelsCreated⟩ := hextends
  rw [h.index] at hindex
  simp only [h.submodels] at hsubmodels hothers
  rw [h.shellsCreated] at hcreated
  rw [h.submodelsCreated] at hsubmodelsCreated
  exact ⟨hindex, hsubmodels, hothers, hcreated, hsubmodelsCreated⟩

theorem index_addSubmodel {shellId : String} {submodel : SubmodelDescriptor}
    {shells shells' : List ShellDescriptor}
    (h : addSubmodel shellId submodel shells = some shells') :
    shells'.map (fun shell => (shell.id, shell.specificAssetIds)) =
      shells.map fun shell => (shell.id, shell.specificAssetIds) := by
  induction shells generalizing shells' with
  | nil => cases h
  | cons shell rest ih =>
      unfold addSubmodel at h
      split at h
      · cases h
        rfl
      · obtain ⟨rest', hrest, rfl⟩ := Option.map_eq_some_iff.1 h
        rw [List.map_cons, List.map_cons, ih hrest]

theorem find?_addSubmodel {shellId : String} {submodel : SubmodelDescriptor}
    {shells shells' : List ShellDescriptor}
    (h : addSubmodel shellId submodel shells = some shells') (other : String) :
    shells'.find? (·.id = other) =
      (shells.find? (·.id = other)).map fun shell =>
        if other = shellId then { shell with submodels := shell.submodels ++ [submodel] }
        else shell := by
  induction shells generalizing shells' with
  | nil => cases h
  | cons shell rest ih =>
      unfold addSubmodel at h
      split at h
      · next hid =>
          cases h
          subst hid
          by_cases hother : shell.id = other
          · simp [hother]
          · simp [hother, Ne.symm hother]
      · next hid =>
          obtain ⟨rest', hrest, rfl⟩ := Option.map_eq_some_iff.1 h
          by_cases hother : shell.id = other
          · subst hother
            simp [hid]
          · simp [hother, ih hrest]

theorem addSubmodel_isSome {shellId : String} (submodel : SubmodelDescriptor)
    {shells : List ShellDescriptor} {shell : ShellDescriptor}
    (h : shells.find? (·.id = shellId) = some shell) :
    ∃ shells', addSubmodel shellId submodel shells = some shells' := by
  induction shells with
  | nil => cases h
  | cons first rest ih =>
      unfold addSubmodel
      by_cases hid : first.id = shellId
      · simp [hid]
      · obtain ⟨rest', hrest⟩ := ih (by simpa [hid] using h)
        simp [hid, hrest]

/-- Where a shell is there, a submodel can be added to it. -/
theorem createSubmodel_extends {shellId : String} {found : List SubmodelDescriptor}
    (submodel : SubmodelDescriptor) (h : r.submodels shellId = .ok found) :
    r.Extends shellId submodel (r.createSubmodel shellId submodel).1 ∧
      (r.createSubmodel shellId submodel).2 = .ok submodel := by
  obtain ⟨shell, hshell⟩ : ∃ shell, r.shells.find? (·.id = shellId) = some shell := by
    unfold Registry.submodels at h
    split at h
    · exact ⟨_, ‹_›⟩
    · cases h
  obtain ⟨shells', hshells⟩ := addSubmodel_isSome submodel hshell
  rw [createSubmodel, hshells]
  refine ⟨⟨index_addSubmodel hshells, ?_, ?_, rfl, rfl⟩, rfl⟩
  · intro found hfound
    simp only [Registry.submodels, find?_addSubmodel hshells, hshell] at hfound ⊢
    cases hfound
    simp
  · intro other hother
    simp only [Registry.submodels, find?_addSubmodel hshells]
    cases r.shells.find? (·.id = other) <;> simp [hother]

theorem addSubmodel_eq_none {shellId : String} (submodel : SubmodelDescriptor)
    {shells : List ShellDescriptor} (h : shells.find? (·.id = shellId) = none) :
    addSubmodel shellId submodel shells = none := by
  induction shells with
  | nil => rfl
  | cons first rest ih =>
      rw [List.find?_cons] at h
      split at h
      · cases h
      · next hid =>
          rw [addSubmodel, if_neg (by simpa using hid), ih h]
          rfl

theorem createSubmodel_missing {shellId : String} {e : RemoteError} (submodel : SubmodelDescriptor)
    (h : r.submodels shellId = .error e) :
    r.createSubmodel shellId submodel = (r, .error (notFound shellId)) := by
  unfold Registry.submodels at h
  split at h
  · cases h
  · next hnone => rw [createSubmodel, addSubmodel_eq_none submodel hnone]

/-! ## Counting -/

/-- How many shells carry these identifiers and no others. -/
def shellsWith (r : Registry) (ids : List SpecificAssetId) : Nat :=
  r.shells.countP (·.specificAssetIds = ids)

def submodelsWith (r : Registry) (shellId idShort : String) : Nat :=
  match r.submodels shellId with
  | .ok found => found.countP (·.idShort = idShort)
  | .error _ => 0

theorem shellsWith_eq (r : Registry) (ids : List SpecificAssetId) :
    r.shellsWith ids = r.index.countP (·.2 = ids) := by
  rw [shellsWith, index, List.countP_map]
  rfl

theorem shellsWith_eq_zero {ids : List SpecificAssetId} (h : r.lookup ids = []) :
    r.shellsWith ids = 0 := by
  rw [shellsWith, List.countP_eq_zero]
  intro shell hshell hids
  have hsame : shell.specificAssetIds = ids := of_decide_eq_true hids
  have hmem : shell.id ∈ r.lookup ids :=
    mem_lookup_iff.2 ⟨shell, hshell, rfl, hsame ▸ List.Subset.refl _⟩
  rw [h] at hmem
  cases hmem

theorem submodelsWith_eq_zero {shellId idShort : String} {found : List SubmodelDescriptor}
    (hfound : r.submodels shellId = .ok found)
    (hnone : found.find? (·.idShort = idShort) = none) : r.submodelsWith shellId idShort = 0 := by
  rw [submodelsWith, hfound]
  exact List.countP_eq_zero.2 (List.find?_eq_none.1 hnone)

theorem Alike.shellsWith (h : r.Alike r') (ids : List SpecificAssetId) :
    r'.shellsWith ids = r.shellsWith ids := by
  rw [Registry.shellsWith, Registry.shellsWith, h.shells]

theorem Alike.submodelsWith (h : r.Alike r') (shellId idShort : String) :
    r'.submodelsWith shellId idShort = r.submodelsWith shellId idShort := by
  rw [Registry.submodelsWith, Registry.submodelsWith, h.submodels]

theorem Gains.shellsWith {shell : ShellDescriptor} (h : r.Gains shell r')
    (ids : List SpecificAssetId) : r'.shellsWith ids =
      r.shellsWith ids + if shell.specificAssetIds = ids then 1 else 0 := by
  rw [Registry.shellsWith, Registry.shellsWith, h.shells, List.countP_append]
  simp [List.countP_cons]

/-- A new shell without submodels. -/
theorem Gains.submodelsWith {shell : ShellDescriptor} (h : r.Gains shell r')
    (hbare : shell.submodels = []) (shellId idShort : String) :
    r'.submodelsWith shellId idShort = r.submodelsWith shellId idShort := by
  simp only [Registry.submodelsWith, Registry.submodels, h.shells, List.find?_append]
  cases r.shells.find? (·.id = shellId) with
  | some found => rfl
  | none => by_cases hid : shell.id = shellId <;> simp [hid, hbare]

theorem Extends.shellsWith {shellId : String} {submodel : SubmodelDescriptor}
    (h : r.Extends shellId submodel r') (ids : List SpecificAssetId) :
    r'.shellsWith ids = r.shellsWith ids := by
  rw [shellsWith_eq, shellsWith_eq, h.index]

theorem Extends.submodelsWith {shellId : String} {submodel : SubmodelDescriptor}
    {found : List SubmodelDescriptor} (h : r.Extends shellId submodel r')
    (hfound : r.submodels shellId = .ok found) (other idShort : String) :
    r'.submodelsWith other idShort = r.submodelsWith other idShort +
      if other = shellId ∧ submodel.idShort = idShort then 1 else 0 := by
  by_cases hother : other = shellId
  · subst hother
    simp only [Registry.submodelsWith, h.submodels found hfound, hfound, List.countP_append,
      true_and]
    simp [List.countP_cons]
  · simp only [Registry.submodelsWith, h.others other hother, hother, false_and, if_false,
      Nat.add_zero]

/-! ## Calls -/

structure Reliable (r : Registry) : Prop where
  faultless : r.faults.list = []
  accepting : r.conflictOnCreate = false

/-- What can become of a call: it fails and leaves the twins alone, or it is answered. -/
inductive Met (r : Registry) (c : Call) : Registry → Response (Answer c) → Prop where
  | broken {after : Registry} {message : Option String} : ¬ r.Reliable → r.Alike after →
      Met r c after (.crash message)
  | failed {after : Registry} (e : RemoteError) : ¬ r.Reliable → r.Alike after →
      Met r c after (.reply (failure e c))
  | answered {same : Registry} : r.Alike same → (r.Reliable → same.Reliable) →
      Met r c (answer same c).1 (.reply (answer same c).2)

theorem Alike.met {c : Call} (h : r.Alike r') (hreliable : r.Reliable → r'.Reliable) :
    r.Met c (answer r' c).1 (.reply (answer r' c).2) :=
  .answered h hreliable

theorem meet_of_faultless {faults : Faults} (h : faults.list = []) (call key : String) :
    (faults.meet call key).1.list = [] ∧ (faults.meet call key).2 = none := by
  simp [Faults.meet, h]

theorem meet_list (faults : Faults) (call key : String) :
    (faults.meet call key).1.list = faults.list :=
  rfl

theorem receive_met (r : Registry) (c : Call) : r.Met c (r.receive c).1 (r.receive c).2 := by
  have hunreliable : ∀ {x}, (r.faults.meet (faultKey c).1 (faultKey c).2).2 = some x →
      ¬ r.Reliable := by
    intro x hx hreliable
    rw [(meet_of_faultless hreliable.faultless _ _).2] at hx
    cases hx
  unfold receive
  dsimp only
  split
  · next faults message hmeet => exact .broken (hunreliable (by rw [hmeet])) ⟨rfl, rfl, rfl⟩
  · next faults e hmeet => exact .failed e (hunreliable (by rw [hmeet])) ⟨rfl, rfl, rfl⟩
  · next faults hmeet =>
      have halike : r.Alike { r with faults := faults } := ⟨rfl, rfl, rfl⟩
      apply halike.met
      intro hreliable
      have hlist := meet_list r.faults (faultKey c).1 (faultKey c).2
      rw [hmeet] at hlist
      exact ⟨hlist.trans hreliable.faultless, hreliable.accepting⟩

theorem answer_policy (r : Registry) (c : Call) :
    (r.answer c).1.conflictOnCreate = r.conflictOnCreate ∧ (r.answer c).1.faults = r.faults := by
  cases c with
  | lookup ids => exact ⟨rfl, rfl⟩
  | createShell shell =>
      simp only [answer, createShell]
      split <;> exact ⟨rfl, rfl⟩
  | submodels shellId => exact ⟨rfl, rfl⟩
  | createSubmodel shellId submodel =>
      simp only [answer, createSubmodel]
      split <;> exact ⟨rfl, rfl⟩

/-- What can fail stays the same. -/
theorem receive_policy (r : Registry) (c : Call) :
    (r.receive c).1.conflictOnCreate = r.conflictOnCreate ∧
      (r.receive c).1.faults.list = r.faults.list := by
  have hlist := meet_list r.faults (faultKey c).1 (faultKey c).2
  unfold receive
  dsimp only
  split
  · next hmeet => exact ⟨rfl, by rwa [hmeet] at hlist⟩
  · next hmeet => exact ⟨rfl, by rwa [hmeet] at hlist⟩
  · next faults hmeet =>
      obtain ⟨haccepting, hfaults⟩ := answer_policy { r with faults := faults } c
      refine ⟨haccepting, ?_⟩
      rw [hmeet] at hlist
      exact (congrArg Faults.list hfaults).trans hlist

theorem Reliable.receive (h : r.Reliable) (c : Call) : (r.receive c).1.Reliable :=
  ⟨(receive_policy r c).2.trans h.faultless, (receive_policy r c).1.trans h.accepting⟩

end Dataspace.Scripted.Registry
