import Dataspace.Proofs.Task.Race
import Dataspace.Proofs.Twin.Reconcile
/-!
Rows that are reconciled together.  Each looks before it creates, but
nothing keeps others from creating the same in between.  What is
created too often is created by tasks that were under way at one time.
-/

namespace Dataspace.Registry

open Scripted (registrySurroundings)
open Scripted.Registry

variable {M : Memory}

/-! ## What a row is about to do -/

/-- What is left to do for a row. -/
inductive Errand where
  | looking (ids : List SpecificAssetId)
  /-- No shell was found. -/
  | making (ids : List SpecificAssetId)
  | listing (shellId : String)
  /-- The shell had no such submodel. -/
  | placing (shellId : String)
  | over

namespace Errand

def looked (ids : List SpecificAssetId) : Except RemoteError (List String) → Errand
  | .ok [] => .making ids
  | .ok [shellId] => .listing shellId
  | _ => .over

def made : Except RemoteError ShellDescriptor → Errand
  | .ok shell => .listing shell.id
  | .error _ => .over

def listed (idShort shellId : String) : Except RemoteError (List SubmodelDescriptor) → Errand
  | .ok found => if (found.find? (·.idShort = idShort)).isSome then .over else .placing shellId
  | .error _ => .over

def allows (idShort : String) : Errand → Call → Prop
  | .looking ids, .lookup sought => sought = ids
  | .making ids, .createShell shell => shell.specificAssetIds = ids ∧ shell.submodels = []
  | .listing shellId, .submodels asked => asked = shellId
  | .placing shellId, .createSubmodel extended submodel =>
      extended = shellId ∧ submodel.idShort = idShort
  | _, _ => False

def next (idShort : String) : Errand → (c : Call) → Answer c → Errand
  | .looking ids, .lookup _, a => looked ids a
  | .making _, .createShell _, a => made a
  | .listing shellId, .submodels _, a => listed idShort shellId a
  | _, _, _ => .over

end Errand

/-- How a row is reconciled: one call after another, each only if the one before says so. -/
def errands (idShort : String) : Protocol interface where
  Point := Errand
  entry e := ∃ ids, e = .looking ids
  exit := .over
  allows := Errand.allows idShort
  next := Errand.next idShort

theorem makeShell_obeys (row : TwinRow) (b : BusinessIdentifiers) (idShort : String) :
    (makeShell row b : Work M _).Obeys (errands idShort)
      (fun e x => ∀ shellId, x = .ok shellId → e = .listing shellId)
      (.making b.specificAssetIds) := by
  have hcreate : ∀ id asset, (createShell (newShell row b id asset) >>= createdId : Work M _).Obeys
      (errands idShort) (fun e x => ∀ shellId, x = .ok shellId → e = .listing shellId)
      (.making b.specificAssetIds) := by
    intro id asset
    constructor
    · exact ⟨rfl, rfl⟩
    · rintro (e | created)
      · exact nofun
      · rintro _ ⟨⟩
        rfl
  cases huuid : row.uuid with
  | some uuid =>
      rw [makeShell_of_some huuid]
      exact fun id => hcreate _ uuid
  | none =>
      rw [makeShell_of_none huuid]
      exact fun id n => hcreate _ (Uuid.urn n)

theorem shellOf_obeys (settings : ReconcileSettings) (row : TwinRow) (idShort : String) :
    (shellOf settings row : Work M _).Obeys (errands idShort)
      (fun e x => ∀ shellId created, x = .ok (shellId, created) → e = .listing shellId)
      (.looking (wanted settings row)) := by
  refine ⟨rfl, ?_⟩
  intro a
  match a with
  | .error e => exact nofun
  | .ok [] =>
      apply (makeShell_obeys row _ idShort).bind
      intro e x hx
      match x with
      | .error _ => exact nofun
      | .ok shellId =>
          rintro _ _ ⟨⟩
          exact hx shellId rfl
  | .ok [shellId] =>
      rintro _ _ ⟨⟩
      rfl
  | .ok (first :: second :: rest) => exact nofun

theorem submodelOf_obeys (settings : ReconcileSettings) (row : TwinRow) (spec : SubmodelSpec)
    (shellId : String) : (submodelOf settings row spec shellId : Work M _).Obeys
      (errands spec.idShort) (fun _ _ => True) (.listing shellId) := by
  refine ⟨rfl, ?_⟩
  intro a
  match a with
  | .error e => trivial
  | .ok found =>
      dsimp only [Program.bind, errands, Errand.next, Errand.listed]
      cases found.find? (·.idShort = spec.idShort) with
      | some existing => trivial
      | none =>
          intro n
          refine ⟨⟨rfl, rfl⟩, ?_⟩
          intro a
          cases a <;> trivial

theorem reconcileItem_obeys (settings : ReconcileSettings) (spec : SubmodelSpec) (row : TwinRow) :
    (reconcileItem settings spec row : Work M _).Obeys (errands spec.idShort) (fun _ _ => True)
      (.looking (wanted settings row)) := by
  have hboth : (reconcile settings row spec : Work M _).Obeys (errands spec.idShort)
      (fun _ _ => True) (.looking (wanted settings row)) := by
    apply (shellOf_obeys settings row spec.idShort).bind
    intro e x hx
    match x with
    | .error _ => trivial
    | .ok (shellId, created) =>
        rw [hx shellId created rfl]
        apply (submodelOf_obeys settings row spec shellId).bind
        intro e x _
        cases x <;> trivial
  apply hboth.bind
  intro e x _
  cases x <;> trivial

/-! ## What a call makes of it -/

/-- How a row goes on, and what that makes of the registry. -/
inductive Errand.Goes (idShort : String) (r : Scripted.Registry) :
    Errand → Scripted.Registry → Errand → Prop where
  | leaves (e : Errand) {after : Scripted.Registry} : r.Alike after → Goes idShort r e after .over
  | looks {ids : List SpecificAssetId} {after : Scripted.Registry} : r.Alike after →
      Goes idShort r (.looking ids) after (looked ids (.ok (r.lookup ids)))
  | makes {shell : ShellDescriptor} {after : Scripted.Registry} : shell.submodels = [] →
      r.Gains shell after →
      Goes idShort r (.making shell.specificAssetIds) after (.listing shell.id)
  | lists {shellId : String} {found : List SubmodelDescriptor} {after : Scripted.Registry} :
      r.submodels shellId = .ok found → r.Alike after →
      Goes idShort r (.listing shellId) after (listed idShort shellId (.ok found))
  | places {shellId : String} {found : List SubmodelDescriptor} {submodel : SubmodelDescriptor}
      {after : Scripted.Registry} : r.submodels shellId = .ok found → submodel.idShort = idShort →
      r.Extends shellId submodel after → Goes idShort r (.placing shellId) after .over

section Goes

variable {idShort : String} {r after : Scripted.Registry} {e e' : Errand}

/-- A call that fails ends the row. -/
theorem failure_goes (c : Call) (x : RemoteError) (halike : r.Alike after) :
    e.Goes idShort r after (e.next idShort c (failure x c)) := by
  have hover : e.next idShort c (failure x c) = .over := by cases c <;> cases e <;> rfl
  rw [hover]
  exact .leaves e halike

/-- What an answer makes of a row. -/
theorem answer_goes {same : Scripted.Registry} {c : Call} (hallows : e.allows idShort c)
    (halike : r.Alike same) :
    e.Goes idShort r (answer same c).1 (e.next idShort c (answer same c).2) := by
  match e, c with
  | .looking ids, .lookup sought =>
      obtain rfl : sought = ids := hallows
      have hlooks : (Errand.looking sought).Goes idShort r same _ := .looks halike
      rwa [← halike.lookup] at hlooks
  | .making ids, .createShell shell =>
      obtain ⟨rfl, hbare⟩ : shell.specificAssetIds = ids ∧ shell.submodels = [] := hallows
      simp only [answer, Scripted.Registry.createShell]
      split
      · exact .leaves _ halike
      · exact .makes hbare (halike.gains ⟨rfl, rfl, rfl⟩)
  | .listing shellId, .submodels asked =>
      obtain rfl : asked = shellId := hallows
      have hsubmodels := halike.submodels asked
      simp only [answer, Errand.next]
      cases hfound : same.submodels asked with
      | error x => exact .leaves _ halike
      | ok found => exact .lists (hsubmodels.symm.trans hfound) halike
  | .placing shellId, .createSubmodel extended submodel =>
      obtain ⟨rfl, hshort⟩ : extended = shellId ∧ submodel.idShort = idShort := hallows
      have hsubmodels := halike.submodels extended
      simp only [answer, Errand.next]
      cases hfound : same.submodels extended with
      | error x =>
          rw [createSubmodel_missing submodel hfound]
          exact .leaves _ halike
      | ok found =>
          have hextends := halike.extends (createSubmodel_extends submodel hfound).1
          exact .places (hsubmodels.symm.trans hfound) hshort hextends

theorem prompt : registrySurroundings.Prompt := by
  intro r c millis
  change (r.receive c).2 ≠ _
  unfold Scripted.Registry.receive
  dsimp only
  split <;> nofun

/-- What is said to a call is what the registry has met it with. -/
theorem met_of_receive {c : Call} {response : Response (Answer c)}
    (h : (registrySurroundings.receive r c).2 = response) :
    r.Met c (registrySurroundings.receive r c).1 response := by
  subst h
  exact receive_met r c

/-- A choice moves one row at most, and the registry by what the row calls. -/
theorem goes_of_shifts {points points' : List Errand}
    (h : (errands idShort).Shifts (S := registrySurroundings) r points after points') :
    (points' = points ∧ after = r) ∨ ∃ (i : Nat) (e e' : Errand), points[i]? = some e ∧
      points' = points.set i e' ∧ e.Goes idShort r after e' := by
  match h with
  | .stays => exact .inl ⟨rfl, rfl⟩
  | .ends hs => exact .inr ⟨_, _, _, hs, rfl, .leaves _ (.refl r)⟩
  | .breaks (i := i) (s := e) (c := c) hs _ hresponse =>
      have hmet := met_of_receive hresponse
      generalize (registrySurroundings.receive r c).1 = after at hmet ⊢
      cases hmet with
      | broken _ halike => exact .inr ⟨i, e, _, hs, rfl, .leaves _ halike⟩
  | .answered (i := i) (s := e) (c := c) hs hallows hresponse =>
      have hmet := met_of_receive hresponse
      generalize (registrySurroundings.receive r c).1 = after at hmet ⊢
      refine .inr ⟨i, e, _, hs, rfl, ?_⟩
      cases hmet with
      | failed x _ halike => exact failure_goes c x halike
      | answered halike _ => exact answer_goes hallows halike

/-- What is found stays found. -/
theorem Errand.Goes.lookup_subset (h : e.Goes idShort r after e') (ids : List SpecificAssetId) :
    r.lookup ids ⊆ after.lookup ids := by
  cases h with
  | leaves _ halike => rw [halike.lookup]; exact List.Subset.refl _
  | looks halike => rw [halike.lookup]; exact List.Subset.refl _
  | makes _ hgains => rw [hgains.lookup]; exact List.subset_append_left _ _
  | lists _ halike => rw [halike.lookup]; exact List.Subset.refl _
  | places _ _ hextends => rw [lookup_congr hextends.index]; exact List.Subset.refl _

theorem course_lookup_subset {limit : Nat} {r last : registrySurroundings.State}
    {points final : List (errands idShort).Point}
    (h : (errands idShort).Course limit last final r points) (ids : List SpecificAssetId) :
    Scripted.Registry.lookup r ids ⊆ Scripted.Registry.lookup last ids := by
  induction h with
  | stop => exact List.Subset.refl _
  | go hshifts _ _ ih =>
      obtain ⟨-, rfl⟩ | ⟨i, e, e', -, -, hgoes⟩ := goes_of_shifts hshifts
      · exact ih
      · exact List.Subset.trans (hgoes.lookup_subset ids) ih

end Goes

/-- What is true of every row that goes on makes a step of a contest. -/
theorem contest_step {idShort : String} (C : (errands idShort).Contest registrySurroundings)
    {r after : Scripted.Registry} {points points' : List Errand}
    (h : (errands idShort).Shifts (S := registrySurroundings) r points after points')
    (hgoes : ∀ e e' : Errand, e.Goes idShort r after e' →
      ∃ n, (C.stand e).Goes (C.present r) (C.stand e') n ∧ C.count after ≤ C.count r + n)
    (hstays : ∀ e e' : Errand, e.Goes idShort r after e' → C.present r → C.present after) :
    (C.race r points).Step (C.race after points') := by
  obtain ⟨rfl, rfl⟩ | ⟨i, e, e', he, rfl, hstep⟩ := goes_of_shifts h
  · exact .rests
  · obtain ⟨n, hstand, hcount⟩ := hgoes e e' hstep
    exact C.step_of_goes he hstand hcount (hstays e e' hstep)

/-! ## The race for a shell -/

/-- How a row stands to the shells with just these identifiers. -/
def Errand.shellStand (ids : List SpecificAssetId) : Errand → Stand
  | .looking own => if own = ids then .unsure else .past
  | .making own => if own = ids then .making else .past
  | .listing _ | .placing _ | .over => .past

def shellContest (idShort : String) (ids : List SpecificAssetId) :
    (errands idShort).Contest registrySurroundings where
  stand := Errand.shellStand ids
  present := fun r : Scripted.Registry => r.lookup ids ≠ []
  count := fun r : Scripted.Registry => r.shellsWith ids
  absent r h := shellsWith_eq_zero (not_not.1 h)
  entry := by
    rintro _ ⟨own, rfl⟩
    change (if own = ids then Stand.unsure else Stand.past) ≠ .making
    split <;> decide
  exit := nofun

theorem Errand.Goes.shell {idShort : String} {r after : Scripted.Registry} {e e' : Errand}
    (h : e.Goes idShort r after e') (ids : List SpecificAssetId) :
    ∃ n, (e.shellStand ids).Goes (r.lookup ids ≠ []) (e'.shellStand ids) n ∧
      after.shellsWith ids ≤ r.shellsWith ids + n := by
  cases h with
  | leaves _ halike => exact ⟨0, .leaves _, Nat.le_of_eq (halike.shellsWith ids)⟩
  | @looks own _ halike =>
      refine ⟨0, ?_, Nat.le_of_eq (halike.shellsWith ids)⟩
      match hfound : r.lookup own with
      | [] =>
          by_cases hown : own = ids
          · subst hown
            simp only [shellStand, looked, if_true]
            exact .sees (not_not_intro hfound)
          · simp only [shellStand, looked, if_neg hown]
            exact .leaves _
      | [shellId] => exact .leaves _
      | first :: second :: rest => exact .leaves _
  | @makes shell _ _ hgains =>
      have hcount := hgains.shellsWith ids
      by_cases hown : shell.specificAssetIds = ids
      · rw [if_pos hown] at hcount
        refine ⟨1, ?_, Nat.le_of_eq hcount⟩
        simp only [shellStand, if_pos hown]
        exact .makes
      · rw [if_neg hown] at hcount
        exact ⟨0, .leaves _, Nat.le_of_eq hcount⟩
  | @lists shellId found _ _ halike =>
      have hpast : (listed idShort shellId (.ok found)).shellStand ids = .past := by
        rw [listed, apply_ite (shellStand ids)]
        exact ite_self _
      rw [hpast]
      exact ⟨0, .leaves _, Nat.le_of_eq (halike.shellsWith ids)⟩
  | places _ _ hextends => exact ⟨0, .leaves _, Nat.le_of_eq (hextends.shellsWith ids)⟩

theorem shells_of_course {idShort : String} {limit : Nat} {r last : registrySurroundings.State}
    {points final : List (errands idShort).Point}
    (h : (errands idShort).Course limit last final r points)
    (hfresh : ∀ e ∈ points, (errands idShort).entry e) (ids : List SpecificAssetId) :
    (Scripted.Registry.lookup r ids ≠ [] →
      Scripted.Registry.shellsWith last ids ≤ Scripted.Registry.shellsWith r ids) ∧
    Scripted.Registry.shellsWith last ids ≤ Scripted.Registry.shellsWith r ids +
      min limit (points.countP (Errand.shellStand ids · = .unsure)) := by
  apply (shellContest idShort ids).count_le h _ hfresh
  intro r after points points' hshifts _
  apply contest_step (shellContest idShort ids) hshifts
  · exact fun e e' hgoes => hgoes.shell ids
  · intro e e' hgoes hpresent hnone
    exact hpresent (List.eq_nil_of_subset_nil (hnone ▸ hgoes.lookup_subset ids))

/-! ## The race for a submodel -/

/-- How a row stands to the submodels with its short id in one shell.  Rows that do not find the
shell, not even in the end, are not concerned. -/
def Errand.submodelStand (shellId : String) (last : Scripted.Registry) : Errand → Stand
  | .looking ids | .making ids => if shellId ∈ last.lookup ids then .unsure else .past
  | .listing found => if found = shellId then .unsure else .past
  | .placing found => if found = shellId then .making else .past
  | .over => .past

def submodelContest (idShort shellId : String) (last : Scripted.Registry) :
    (errands idShort).Contest registrySurroundings where
  stand := Errand.submodelStand shellId last
  present := fun r : Scripted.Registry => r.submodelsWith shellId idShort ≠ 0
  count := fun r : Scripted.Registry => r.submodelsWith shellId idShort
  absent _ h := not_not.1 h
  entry := by
    rintro _ ⟨ids, rfl⟩
    change (if shellId ∈ last.lookup ids then Stand.unsure else Stand.past) ≠ .making
    split <;> decide
  exit := nofun

theorem Errand.Goes.submodelsWith {idShort : String} {r after : Scripted.Registry} {e e' : Errand}
    (h : e.Goes idShort r after e') (shellId other : String) :
    after.submodelsWith shellId other = r.submodelsWith shellId other ∨
      e = .placing shellId ∧ other = idShort ∧
        after.submodelsWith shellId other = r.submodelsWith shellId other + 1 := by
  cases h with
  | leaves _ halike => exact .inl (halike.submodelsWith shellId other)
  | looks halike => exact .inl (halike.submodelsWith shellId other)
  | makes hbare hgains => exact .inl (hgains.submodelsWith hbare shellId other)
  | lists _ halike => exact .inl (halike.submodelsWith shellId other)
  | @places placed _ submodel _ hfound hshort hextends =>
      have hcount := hextends.submodelsWith hfound shellId other
      by_cases hthis : shellId = placed ∧ submodel.idShort = other
      · obtain ⟨rfl, rfl⟩ := hthis
        exact .inr ⟨rfl, hshort, by simpa using hcount⟩
      · rw [if_neg hthis] at hcount
        exact .inl hcount

theorem Errand.Goes.submodel {idShort : String} {r after last : Scripted.Registry} {e e' : Errand}
    (h : e.Goes idShort r after e') (hlast : ∀ ids, after.lookup ids ⊆ last.lookup ids)
    (shellId : String) :
    ∃ n, (e.submodelStand shellId last).Goes (r.submodelsWith shellId idShort ≠ 0)
        (e'.submodelStand shellId last) n ∧
      after.submodelsWith shellId idShort ≤ r.submodelsWith shellId idShort + n := by
  cases h with
  | leaves _ halike => exact ⟨0, .leaves _, Nat.le_of_eq (halike.submodelsWith shellId idShort)⟩
  | @looks own _ halike =>
      refine ⟨0, ?_, Nat.le_of_eq (halike.submodelsWith shellId idShort)⟩
      match hfound : r.lookup own with
      | [] => exact .same _
      | [found] =>
          by_cases hthis : found = shellId
          · subst hthis
            have hmem : found ∈ last.lookup own := by
              apply hlast own
              rw [halike.lookup, hfound]
              exact List.mem_singleton_self found
            simp only [looked, submodelStand, if_pos hmem, if_true]
            exact .same _
          · simp only [looked, submodelStand, if_neg hthis]
            exact .leaves _
      | first :: second :: rest => exact .leaves _
  | @makes shell _ hbare hgains =>
      refine ⟨0, ?_, Nat.le_of_eq (hgains.submodelsWith hbare shellId idShort)⟩
      by_cases hthis : shell.id = shellId
      · subst hthis
        have hmem : shell.id ∈ last.lookup shell.specificAssetIds := by
          apply hlast
          rw [hgains.lookup, if_pos (List.Subset.refl _)]
          exact List.mem_append_right _ (List.mem_singleton_self _)
        simp only [submodelStand, if_pos hmem, if_true]
        exact .same _
      · simp only [submodelStand, if_neg hthis]
        exact .leaves _
  | @lists asked found _ hfound halike =>
      refine ⟨0, ?_, Nat.le_of_eq (halike.submodelsWith shellId idShort)⟩
      cases hfind : found.find? (·.idShort = idShort) with
      | some submodel =>
          simp only [listed, hfind, Option.isSome_some, if_true]
          exact .leaves _
      | none =>
          simp only [listed, hfind, Option.isSome_none, Bool.false_eq_true, if_false]
          by_cases hthis : asked = shellId
          · subst hthis
            simp only [submodelStand, if_true]
            exact .sees (not_not_intro (submodelsWith_eq_zero hfound hfind))
          · simp only [submodelStand, if_neg hthis]
            exact .leaves _
  | @places placed found submodel _ hfound hshort hextends =>
      have hcount := hextends.submodelsWith hfound shellId idShort
      by_cases hthis : shellId = placed
      · subst hthis
        refine ⟨1, ?_, ?_⟩
        · simp only [submodelStand, if_true]
          exact .makes
        · rw [if_pos ⟨rfl, hshort⟩] at hcount
          exact Nat.le_of_eq hcount
      · rw [if_neg fun h => hthis h.1] at hcount
        exact ⟨0, .leaves _, Nat.le_of_eq hcount⟩

theorem submodels_of_course {idShort : String} {limit : Nat} {r last : registrySurroundings.State}
    {points final : List (errands idShort).Point}
    (h : (errands idShort).Course limit last final r points)
    (hfresh : ∀ e ∈ points, (errands idShort).entry e) (shellId : String) :
    (Scripted.Registry.submodelsWith r shellId idShort ≠ 0 →
      Scripted.Registry.submodelsWith last shellId idShort ≤
        Scripted.Registry.submodelsWith r shellId idShort) ∧
    Scripted.Registry.submodelsWith last shellId idShort ≤
      Scripted.Registry.submodelsWith r shellId idShort +
        min limit (points.countP (Errand.submodelStand shellId last · = .unsure)) := by
  apply (submodelContest idShort shellId last).count_le h _ hfresh
  intro r after points points' hshifts hrest
  apply contest_step (submodelContest idShort shellId last) hshifts
  · exact fun e e' hgoes => hgoes.submodel (course_lookup_subset hrest) shellId
  · intro e e' hgoes hpresent
    obtain hsame | ⟨-, -, hmore⟩ := hgoes.submodelsWith shellId idShort
    · exact fun hnone => hpresent (hsame.symm.trans hnone)
    · exact fun hnone => Nat.succ_ne_zero _ (hmore.symm.trans hnone)

/-- Submodels with other short ids are left alone. -/
theorem others_of_course {idShort : String} {limit : Nat} {r last : registrySurroundings.State}
    {points final : List (errands idShort).Point}
    (h : (errands idShort).Course limit last final r points) (shellId : String) {other : String}
    (hother : other ≠ idShort) : Scripted.Registry.submodelsWith last shellId other =
      Scripted.Registry.submodelsWith r shellId other := by
  induction h with
  | stop => rfl
  | go hshifts _ _ ih =>
      obtain ⟨-, rfl⟩ | ⟨i, e, e', -, -, hgoes⟩ := goes_of_shifts hshifts
      · exact ih
      · obtain hsame | ⟨-, hshort, -⟩ := hgoes.submodelsWith shellId other
        · exact ih.trans hsame
        · exact absurd hshort hother

/-! ## Batches -/

/-- The rows of a batch that are reconciled: the first with each number. -/
def firstRows (rows : List TwinRow) : List TwinRow :=
  (Batch.firsts (fun row : TwinRow => toString row.rowNumber) rows).map (·.2)

/-- What a batch of these rows can make of a registry, with so many permits. -/
structure Sparing (settings : ReconcileSettings) (spec : SubmodelSpec) (rows : List TwinRow)
    (permits : Nat) (before after : Scripted.Registry) : Prop where
  shells : ∀ ids, after.shellsWith ids ≤ before.shellsWith ids +
    if before.lookup ids = [] then min permits (rows.countP (wanted settings · = ids)) else 0
  submodels : ∀ shellId, after.submodelsWith shellId spec.idShort ≤
    before.submodelsWith shellId spec.idShort +
      if before.submodelsWith shellId spec.idShort = 0 then
        min permits (rows.countP fun row => shellId ∈ after.lookup (wanted settings row))
      else 0
  others : ∀ shellId idShort, idShort ≠ spec.idShort →
    after.submodelsWith shellId idShort = before.submodelsWith shellId idShort

def entries (settings : ReconcileSettings) (rows : List TwinRow) : List Errand :=
  rows.map fun row => .looking (wanted settings row)

theorem shellStand_entries (settings : ReconcileSettings) (rows : List TwinRow)
    (ids : List SpecificAssetId) :
    (entries settings rows).countP (Errand.shellStand ids · = .unsure) =
      rows.countP (wanted settings · = ids) := by
  rw [entries, List.countP_map]
  apply List.countP_congr
  intro row _
  simp [Errand.shellStand]

theorem submodelStand_entries (settings : ReconcileSettings) (rows : List TwinRow)
    (shellId : String) (last : Scripted.Registry) :
    (entries settings rows).countP (Errand.submodelStand shellId last · = .unsure) =
      rows.countP fun row => shellId ∈ last.lookup (wanted settings row) := by
  rw [entries, List.countP_map]
  apply List.countP_congr
  intro row _
  simp [Errand.submodelStand]

theorem sparing_of_course {settings : ReconcileSettings} {spec : SubmodelSpec} {rows : List TwinRow}
    {permits : Nat} {before after : Scripted.Registry} {final : List (errands spec.idShort).Point}
    (h : (errands spec.idShort).Course (S := registrySurroundings) permits after final before
      (entries settings rows)) :
    Sparing settings spec rows permits before after := by
  have hfresh : ∀ e ∈ entries settings rows, (errands spec.idShort).entry e := by
    intro e he
    obtain ⟨row, -, rfl⟩ := List.mem_map.1 he
    exact ⟨_, rfl⟩
  constructor
  · intro ids
    obtain ⟨hfound, hmissing⟩ := shells_of_course h hfresh ids
    split
    · rwa [shellStand_entries] at hmissing
    · next hpresent => exact hfound hpresent
  · intro shellId
    obtain ⟨hfound, hmissing⟩ := submodels_of_course h hfresh shellId
    split
    · rwa [submodelStand_entries] at hmissing
    · next hpresent => exact hfound hpresent
  · exact fun shellId idShort hother => others_of_course h shellId hother

/-- However the rows of a batch follow each other, and whatever fails: no shell is created for
identifiers that are found before, and no submodel where there is one.  Else no more of them are
created than rows can, and than rows work at a time. -/
theorem batch_creates_sparingly [DecidableEq M.Key] (settings : ReconcileSettings)
    (spec : SubmodelSpec) (rows : List TwinRow) (limit : Nat)
    (shared : Shared registrySurroundings) (locks : KeyLock M.Key M.Value)
    (choices : List Choice) :
    Sparing settings spec (firstRows rows) (Batch.permits limit) shared.world
      ((Machine.start shared locks (Batch.permits limit)
        ((reconciliation settings spec rows).map (·.2))).runs choices).shared.world := by
  have hworks : (reconciliation (M := M) settings spec rows).map (·.2) =
      (firstRows rows).map (reconcileItem settings spec) := by
    simp [reconciliation, firstRows, Function.comp_def]
  rw [hworks]
  have hobeys : ∀ (i : Nat) p e,
      ((firstRows rows).map (reconcileItem (M := M) settings spec))[i]? = some p →
      (entries settings (firstRows rows))[i]? = some e →
      (errands spec.idShort).entry e ∧ p.Obeys (errands spec.idShort) (fun _ _ => True) e := by
    intro i p e hp he
    rw [List.getElem?_map] at hp
    rw [entries, List.getElem?_map] at he
    obtain ⟨row, hrow, rfl⟩ := Option.map_eq_some_iff.1 hp
    rw [hrow] at he
    obtain rfl := Option.some.inj he
    exact ⟨⟨_, rfl⟩, reconcileItem_obeys settings spec row⟩
  have hlength : (entries settings (firstRows rows)).length =
      ((firstRows rows).map (reconcileItem (M := M) settings spec)).length := by
    rw [entries, List.length_map, List.length_map]
  obtain ⟨final, hcourse⟩ :=
    Machine.start_course (P := errands spec.idShort) prompt shared locks _ hlength hobeys choices
  exact sparing_of_course hcourse

namespace Bolts

/-- A bolt that has a shell already, without submodels. -/
def shelved : Scripted.Registry :=
  { Scripted.Registry.empty with
    shells := [⟨"urn:shell", none, none, wanted settings (bolt 1 none), []⟩] }

/-- Two rows of one bolt that are reconciled together, each making one call after the other. -/
def together (r : Scripted.Registry) : Machine registrySurroundings memory ItemResult :=
  (Machine.start ⟨r, 0, 0, 0⟩ .empty (Batch.permits 2)
    ((reconciliation settings part [bolt 1 none, bolt 2 none]).map (·.2))).runs
      (List.replicate 12 [.step 0, .step 1]).flatten

def statuses (m : Machine registrySurroundings memory ItemResult) : List (Option ItemStatus) :=
  m.outcomes.map fun outcome => (outcome.bind Outcome.value?).map ItemResult.status

/-- Both rows succeed, and there are two shells of the bolt, or two submodels in its only shell. -/
theorem bolt_doubled :
    (statuses (together .empty) = [some .success, some .success] ∧
      (together .empty).shared.world.shellsWith (wanted settings (bolt 1 none)) = 2) ∧
    (statuses (together shelved) = [some .success, some .success] ∧
      (together shelved).shared.world.submodelsWith "urn:shell" part.idShort = 2) := by
  decide +kernel

end Bolts

end Dataspace.Registry
