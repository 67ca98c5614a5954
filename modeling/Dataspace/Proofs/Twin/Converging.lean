import Dataspace.Proofs.Twin.Reconcile
/-!
Attempts to reconcile one row, again and again.  Any call of an attempt can fail, and an attempt
can be cut off anywhere; what it leaves behind is found by the next one.
-/

namespace Dataspace.Registry

open Scripted (registrySurroundings)
open Scripted.Registry

/-- The shell that is found by identifiers alone, and its first submodel with a short id. -/
def twin? (ids : List SpecificAssetId) (idShort : String) (r : Scripted.Registry) :
    Option (String × String) :=
  match r.lookup ids with
  | [shellId] =>
      match r.submodels shellId with
      | .ok found => (found.find? (·.idShort = idShort)).map fun submodel => (shellId, submodel.id)
      | .error _ => none
  | _ => none

/-- How many shells there will have been at most. -/
def shellsInAll (ids : List SpecificAssetId) (r : Scripted.Registry) : Nat :=
  r.shellsCreated + if r.lookup ids = [] then 1 else 0

/-- How many submodels there will have been at most. -/
def submodelsInAll (ids : List SpecificAssetId) (idShort : String) (r : Scripted.Registry) : Nat :=
  r.submodelsCreated + if twin? ids idShort r = none then 1 else 0

section Attempted

variable {ids : List SpecificAssetId} {idShort : String} {r between after : Scripted.Registry}

theorem twin?_eq_some {shellId : String} {found : List SubmodelDescriptor}
    {submodel : SubmodelDescriptor} (hlookup : r.lookup ids = [shellId])
    (hsubmodels : r.submodels shellId = .ok found)
    (hfind : found.find? (·.idShort = idShort) = some submodel) :
    twin? ids idShort r = some (shellId, submodel.id) := by
  simp [twin?, hlookup, hsubmodels, hfind]

theorem twin?_eq_none {shellId : String} {found : List SubmodelDescriptor}
    (hlookup : r.lookup ids = [shellId]) (hsubmodels : r.submodels shellId = .ok found)
    (hfind : found.find? (·.idShort = idShort) = none) : twin? ids idShort r = none := by
  simp [twin?, hlookup, hsubmodels, hfind]

theorem exists_of_twin? {shellId submodelId : String}
    (h : twin? ids idShort r = some (shellId, submodelId)) :
    ∃ found submodel, r.lookup ids = [shellId] ∧ r.submodels shellId = .ok found ∧
      found.find? (·.idShort = idShort) = some submodel ∧ submodel.id = submodelId := by
  unfold twin? at h
  split at h
  · next hlookup =>
      split at h
      · next found hsubmodels =>
          obtain ⟨submodel, hfind, hpair⟩ := Option.map_eq_some_iff.1 h
          cases hpair
          exact ⟨found, submodel, hlookup, hsubmodels, hfind, rfl⟩
      · cases h
  · cases h

/-- The registry is as near to the twin as another one, or nearer. -/
structure Nears (ids : List SpecificAssetId) (idShort : String) (r after : Scripted.Registry) :
    Prop where
  unambiguous : (r.lookup ids).length ≤ 1 → (after.lookup ids).length ≤ 1
  shells : shellsInAll ids after ≤ shellsInAll ids r
  submodels : submodelsInAll ids idShort after ≤ submodelsInAll ids idShort r

theorem Nears.trans (first : Nears ids idShort r between)
    (second : Nears ids idShort between after) :
    Nears ids idShort r after :=
  ⟨fun h => second.unambiguous (first.unambiguous h), Nat.le_trans second.shells first.shells,
    Nat.le_trans second.submodels first.submodels⟩

theorem Alike.twin? (h : r.Alike after) : twin? ids idShort after = twin? ids idShort r := by
  unfold Registry.twin?
  simp only [h.lookup, h.submodels]

theorem Alike.nears (h : r.Alike after) : Nears ids idShort r after := by
  refine ⟨fun hle => by rwa [h.lookup], ?_, ?_⟩
  · exact Nat.le_of_eq (by rw [shellsInAll, shellsInAll, h.lookup, h.shellsCreated])
  · exact Nat.le_of_eq (by rw [submodelsInAll, submodelsInAll, Alike.twin? h, h.submodelsCreated])

theorem nears_of_gains {shell : ShellDescriptor} (hnone : r.lookup ids = [])
    (hcarried : shell.specificAssetIds = ids) (h : r.Gains shell after) :
    Nears ids idShort r after := by
  have hlookup : after.lookup ids = [shell.id] := by
    rw [h.lookup, hnone, hcarried]
    simp
  have hmissing : twin? ids idShort r = none := by simp [twin?, hnone]
  refine ⟨fun _ => by simp [hlookup], ?_, ?_⟩
  · simp [shellsInAll, hlookup, hnone, h.shellsCreated]
  · rw [submodelsInAll, submodelsInAll, h.submodelsCreated, hmissing]
    split <;> simp

theorem nears_of_extends {shellId : String} {found : List SubmodelDescriptor}
    {submodel : SubmodelDescriptor} (hlookup : r.lookup ids = [shellId])
    (hsubmodels : r.submodels shellId = .ok found)
    (hfind : found.find? (·.idShort = idShort) = none) (hshort : submodel.idShort = idShort)
    (h : r.Extends shellId submodel after) : Nears ids idShort r after ∧
      twin? ids idShort after = some (shellId, submodel.id) := by
  have hsame := lookup_congr h.index ids
  have htwin : twin? ids idShort after = some (shellId, submodel.id) := by
    apply twin?_eq_some (hsame.trans hlookup) (h.submodels found hsubmodels)
    rw [List.find?_append, hfind]
    simp [hshort]
  refine ⟨⟨fun hle => by rwa [hsame], ?_, ?_⟩, htwin⟩
  · exact Nat.le_of_eq (by rw [shellsInAll, shellsInAll, hsame, h.shellsCreated])
  · rw [submodelsInAll, submodelsInAll, htwin, twin?_eq_none hlookup hsubmodels hfind,
      h.submodelsCreated]
    simp

theorem Sought.nears {o : Option (Outcome (Except ReconcileError (String × Bool)))}
    (h : Sought ids r after o) : Nears ids idShort r after := by
  cases h with
  | stopped halike => exact Alike.nears halike
  | broken _ halike => exact Alike.nears halike
  | failed _ _ halike => exact Alike.nears halike
  | ambiguous halike _ => exact Alike.nears halike
  | found halike _ => exact Alike.nears halike
  | created hnone hcarried _ hgains _ => exact nears_of_gains hnone hcarried hgains

theorem Placed.nears {shellId : String}
    {o : Option (Outcome (Except ReconcileError (String × Bool)))}
    (h : Placed idShort shellId r after o) (hlookup : r.lookup ids = [shellId]) :
    Nears ids idShort r after := by
  cases h with
  | stopped halike => exact Alike.nears halike
  | broken _ halike => exact Alike.nears halike
  | failed _ _ halike => exact Alike.nears halike
  | found halike _ _ => exact Alike.nears halike
  | created hfound hnone hshort hextends _ =>
      exact (nears_of_extends hlookup hfound hnone hshort hextends).1

theorem Placed.twin? {shellId submodelId : String} {new : Bool}
    (h : Placed idShort shellId r after (some (.value (.ok (submodelId, new)))))
    (hlookup : r.lookup ids = [shellId]) :
    Registry.twin? ids idShort after = some (shellId, submodelId) := by
  cases h with
  | found halike hfound hfind =>
      rw [Alike.twin? halike]
      exact twin?_eq_some hlookup hfound hfind
  | created hfound hnone hshort hextends hvalue =>
      cases hvalue _ rfl
      exact (nears_of_extends hlookup hfound hnone hshort hextends).2

/-- An attempt never leads away from the twin. -/
theorem Attempted.nears {o : Option (Outcome (Except ReconcileError Reconciled))}
    (h : Attempted ids idShort r after o) : Nears ids idShort r after := by
  cases h with
  | stopped hsought => exact hsought.nears
  | broken hsought => exact hsought.nears
  | failed hsought => exact hsought.nears
  | placing hsought _ hplaced => exact hsought.nears.trans (hplaced.nears hsought.lookup)

/-- An attempt that succeeds leaves the twin that it returns. -/
theorem Attempted.twin? {x : Reconciled}
    (h : Attempted ids idShort r after (some (.value (.ok x)))) :
    Registry.twin? ids idShort after = some (x.shellId, x.submodelId) := by
  obtain ⟨between, hsought, hplaced⟩ := h.of_ok
  exact hplaced.twin? hsought.lookup

theorem Sought.settled {o : Option (Outcome (Except ReconcileError (String × Bool)))}
    {shellId : String} (h : Sought ids r after o) (hlookup : r.lookup ids = [shellId]) :
    r.Alike after ∧ ∀ x, o = some (.value (.ok x)) → x = (shellId, false) := by
  cases h with
  | stopped halike => exact ⟨halike, nofun⟩
  | broken _ halike => exact ⟨halike, nofun⟩
  | failed _ _ halike => exact ⟨halike, nofun⟩
  | ambiguous halike _ => exact ⟨halike, nofun⟩
  | found halike hfound =>
      refine ⟨halike, ?_⟩
      rintro x ⟨⟩
      rw [List.cons.inj (hfound.symm.trans hlookup) |>.1]
  | created hnone _ _ _ _ => cases hnone.symm.trans hlookup

theorem Placed.settled {o : Option (Outcome (Except ReconcileError (String × Bool)))}
    {shellId : String} {found : List SubmodelDescriptor} {submodel : SubmodelDescriptor}
    (h : Placed idShort shellId r after o) (hsubmodels : r.submodels shellId = .ok found)
    (hfind : found.find? (·.idShort = idShort) = some submodel) :
    r.Alike after ∧ ∀ x, o = some (.value (.ok x)) → x = (submodel.id, false) := by
  cases h with
  | stopped halike => exact ⟨halike, nofun⟩
  | broken _ halike => exact ⟨halike, nofun⟩
  | failed _ _ halike => exact ⟨halike, nofun⟩
  | found halike hfound hfirst =>
      obtain rfl := Except.ok.inj (hfound.symm.trans hsubmodels)
      obtain rfl := Option.some.inj (hfirst.symm.trans hfind)
      refine ⟨halike, ?_⟩
      rintro x ⟨⟩
      rfl
  | created hfound hnone _ _ _ =>
      obtain rfl := Except.ok.inj (hfound.symm.trans hsubmodels)
      cases hnone.symm.trans hfind

/-- Where the twin is, an attempt changes nothing, and returns it if it succeeds. -/
theorem Attempted.settled {o : Option (Outcome (Except ReconcileError Reconciled))}
    {shellId submodelId : String}
    (htwin : Registry.twin? ids idShort r = some (shellId, submodelId))
    (h : Attempted ids idShort r after o) : r.Alike after ∧
      ∀ x, o = some (.value (.ok x)) → x = ⟨shellId, submodelId, false, false⟩ := by
  obtain ⟨found, submodel, hlookup, hsubmodels, hfind, rfl⟩ := exists_of_twin? htwin
  cases h with
  | stopped hsought => exact ⟨(hsought.settled hlookup).1, nofun⟩
  | broken hsought => exact ⟨(hsought.settled hlookup).1, nofun⟩
  | failed hsought => exact ⟨(hsought.settled hlookup).1, nofun⟩
  | @placing between _ _ _ o hsought _ hplaced =>
      obtain ⟨hbetween, hvalue⟩ := hsought.settled hlookup
      cases hvalue _ rfl
      obtain ⟨hafter, hplace⟩ :=
        hplaced.settled ((hbetween.submodels shellId).trans hsubmodels) hfind
      refine ⟨hbetween.trans hafter, ?_⟩
      match o with
      | some (.value (.ok _)) =>
          rintro x ⟨⟩
          cases hplace _ rfl
          rfl
      | none | some (.value (.error _)) | some (.crashed _) | some .dropped => exact nofun

end Attempted

/-! ## Attempt after attempt -/

/-- How an attempt goes: the faults that it meets, and the steps it has before it is cut off. -/
structure Attempt where
  faults : Scripted.Faults
  fuel : Nat

variable {M : Memory} [DecidableEq M.Key]

def facing (s : Session registrySurroundings M) (faults : Scripted.Faults) :
    Session registrySurroundings M where
  shared := { s.shared with world := { s.shared.world with faults := faults } }
  locks := s.locks

omit [DecidableEq M.Key] in
theorem facing_alike (s : Session registrySurroundings M) (faults : Scripted.Faults) :
    s.shared.world.Alike (facing s faults).shared.world :=
  ⟨rfl, rfl, rfl⟩

section Attempts

variable (settings : ReconcileSettings) (row : TwinRow) (spec : SubmodelSpec)

def attempt (s : Session registrySurroundings M) (a : Attempt) :
    Session registrySurroundings M × Option (Outcome (Except ReconcileError Reconciled)) :=
  (facing s a.faults).run a.fuel (reconcile settings row spec)

def attempts (s : Session registrySurroundings M) (as : List Attempt) :
    Session registrySurroundings M :=
  as.foldl (fun s a => (attempt settings row spec s a).1) s

theorem attempt_attempted (s : Session registrySurroundings M) (a : Attempt) :
    Attempted (wanted settings row) spec.idShort (facing s a.faults).shared.world
      (attempt settings row spec s a).1.shared.world (attempt settings row spec s a).2 :=
  Session.run_solo a.fuel (reconcile_deals settings row spec _ _ rfl)

theorem attempt_nears (s : Session registrySurroundings M) (a : Attempt) :
    Nears (wanted settings row) spec.idShort s.shared.world
      (attempt settings row spec s a).1.shared.world :=
  (Alike.nears (facing_alike s a.faults)).trans (attempt_attempted settings row spec s a).nears

theorem attempts_nears (s : Session registrySurroundings M) (as : List Attempt) :
    Nears (wanted settings row) spec.idShort s.shared.world
      (attempts settings row spec s as).shared.world := by
  induction as generalizing s with
  | nil => exact Alike.nears (.refl _)
  | cons a as ih => exact (attempt_nears settings row spec s a).trans (ih _)

/-- Where the twin is, attempts change nothing. -/
theorem attempts_alike {s : Session registrySurroundings M} {twin : String × String}
    (htwin : twin? (wanted settings row) spec.idShort s.shared.world = some twin)
    (as : List Attempt) :
    s.shared.world.Alike (attempts settings row spec s as).shared.world := by
  induction as generalizing s with
  | nil => exact .refl _
  | cons a as ih =>
      have halike := facing_alike s a.faults
      have hattempt := halike.trans
        ((attempt_attempted settings row spec s a).settled ((Alike.twin? halike).trans htwin)).1
      exact hattempt.trans (ih ((Alike.twin? hattempt).trans htwin))

/-- How often a row is tried, and whatever fails, there are a shell and a
submodel more at most.  Once an attempt has succeeded, nothing changes any
more, and every success after it is the same without anything new.  Where a
single shell at most is found before, the attempts can succeed at any time. -/
structure Converges (s : Session registrySurroundings M) : Prop where
  shells_le : ∀ as, (attempts settings row spec s as).shared.world.shellsCreated ≤
    s.shared.world.shellsCreated + 1
  submodels_le : ∀ as, (attempts settings row spec s as).shared.world.submodelsCreated ≤
    s.shared.world.submodelsCreated + 1
  unchanged : ∀ as a x bs,
    (attempt settings row spec (attempts settings row spec s as) a).2 = some (.value (.ok x)) →
    (attempt settings row spec (attempts settings row spec s as) a).1.shared.world.Alike
      (attempts settings row spec s (as ++ a :: bs)).shared.world
  again : ∀ as a x bs b y,
    (attempt settings row spec (attempts settings row spec s as) a).2 = some (.value (.ok x)) →
    (attempt settings row spec (attempts settings row spec s (as ++ a :: bs)) b).2 =
      some (.value (.ok y)) →
    y = { x with shellCreated := false, wasCreated := false }
  succeeds : ∀ as a, s.shared.world.conflictOnCreate = false → a.faults.list = [] → 9 ≤ a.fuel →
    ∃ x, (attempt settings row spec (attempts settings row spec s as) a).2 = some (.value (.ok x))

theorem attempts_append (s : Session registrySurroundings M) (as : List Attempt) (a : Attempt)
    (bs : List Attempt) : attempts settings row spec s (as ++ a :: bs) =
      attempts settings row spec (attempt settings row spec (attempts settings row spec s as) a).1
        bs := by
  simp [attempts]

/-- Attempts do not make a registry refuse new shells. -/
theorem attempts_accepting {s : Session registrySurroundings M}
    (haccepting : s.shared.world.conflictOnCreate = false) (as : List Attempt) :
    (attempts settings row spec s as).shared.world.conflictOnCreate = false := by
  induction as generalizing s with
  | nil => exact haccepting
  | cons a as ih =>
      apply ih
      have hdeals := reconcile_deals (M := M) settings row spec (facing s a.faults).shared.world
      have hkeep := hdeals.keep (·.conflictOnCreate = false)
        fun r c h => (receive_policy r c).1.trans h
      exact (Session.run_solo a.fuel (hkeep _ rfl)).2 haccepting

theorem attempt_succeeds {s : Session registrySurroundings M} {a : Attempt}
    (hunambiguous : (s.shared.world.lookup (wanted settings row)).length ≤ 1)
    (haccepting : s.shared.world.conflictOnCreate = false) (hfaultless : a.faults.list = [])
    (hfuel : 9 ≤ a.fuel) :
    ∃ x, (attempt settings row spec s a).2 = some (.value (.ok x)) := by
  have hattempted := attempt_attempted settings row spec s a
  have hends : (attempt settings row spec s a).2 ≠ none :=
    Session.run_brief (reconcile_deals settings row spec _ _ rfl)
      (reconcile_brief settings row spec) hfuel
  obtain ⟨o, ho⟩ := Option.ne_none_iff_exists'.1 hends
  rw [ho] at hattempted ⊢
  cases hattempted.decided ⟨hfaultless, haccepting⟩ with
  | created _ _ _ => exact ⟨_, rfl⟩
  | found _ _ _ => exact ⟨_, rfl⟩
  | ambiguous hmany _ =>
      rw [(facing_alike s a.faults).lookup] at hmany
      exact absurd hmany (by omega)

theorem reconcile_converges (s : Session registrySurroundings M)
    (hunambiguous : (s.shared.world.lookup (wanted settings row)).length ≤ 1) :
    Converges settings row spec s := by
  have hnears := attempts_nears settings row spec s
  have hsettled : ∀ {as a x},
      (attempt settings row spec (attempts settings row spec s as) a).2 = some (.value (.ok x)) →
      twin? (wanted settings row) spec.idShort
          (attempt settings row spec (attempts settings row spec s as) a).1.shared.world =
        some (x.shellId, x.submodelId) := by
    intro as a x hx
    have h := attempt_attempted settings row spec (attempts settings row spec s as) a
    rw [hx] at h
    exact h.twin?
  constructor
  · intro as
    have hle := (hnears as).shells
    unfold shellsInAll at hle
    split at hle <;> split at hle <;> omega
  · intro as
    have hle := (hnears as).submodels
    unfold submodelsInAll at hle
    split at hle <;> split at hle <;> omega
  · intro as a x bs hx
    rw [attempts_append]
    exact attempts_alike settings row spec (hsettled hx) bs
  · intro as a x bs b y hx hy
    have htwin := hsettled hx
    have halike := attempts_alike settings row spec htwin bs
    rw [attempts_append] at hy
    rw [← Alike.twin? (halike.trans (facing_alike _ b.faults))] at htwin
    exact ((attempt_attempted settings row spec _ b).settled htwin).2 y hy
  · intro as a haccepting hfaultless hfuel
    exact attempt_succeeds settings row spec ((hnears as).unambiguous hunambiguous)
      (attempts_accepting settings row spec haccepting as) hfaultless hfuel

end Attempts

namespace Bolts

/-- An attempt that fails half-way: the submodel is refused. -/
def halfway : Attempt :=
  ⟨.ofList [⟨"createSubmodel", none, none, .error (.transport "fake://registry" "refused")⟩], 9⟩

def calm : Attempt :=
  ⟨.ofList [], 9⟩

theorem bolt_converges :
    (beginning.shared.world.lookup (wanted settings (bolt 1 none))).length ≤ 1 ∧
    ∃ x, (attempt settings (bolt 1 none) part
          (attempts settings (bolt 1 none) part beginning [halfway]) calm).2 =
        some (.value (.ok x)) ∧
      (attempt settings (bolt 1 none) part
          (attempts settings (bolt 1 none) part beginning [halfway, calm, halfway]) calm).2 =
        some (.value (.ok { x with shellCreated := false, wasCreated := false })) := by
  have hunambiguous :
      (beginning.shared.world.lookup (wanted settings (bolt 1 none))).length ≤ 1 := by decide
  have h := reconcile_converges settings (bolt 1 none) part beginning hunambiguous
  obtain ⟨x, hx⟩ := h.succeeds [halfway] calm rfl rfl (Nat.le_refl 9)
  obtain ⟨y, hy⟩ := h.succeeds [halfway, calm, halfway] calm rfl rfl (Nat.le_refl 9)
  obtain rfl := h.again [halfway] calm x [halfway] calm y hx hy
  exact ⟨hunambiguous, x, hx, hy⟩

/-- What was created half-way is found. -/
example : (attempt settings (bolt 1 none) part
      (attempts settings (bolt 1 none) part beginning [halfway]) calm).2 =
    some (.value (.ok ⟨Uuid.urn 1, Uuid.urn 4, false, true⟩)) := by
  rfl

end Bolts

end Dataspace.Registry
