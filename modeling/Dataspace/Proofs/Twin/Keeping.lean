import Dataspace.Proofs.Twin.Reconcile
import Mathlib.Data.List.Basic
/-!
Rows that are reconciled one after another.  A row that has its shell
keeps it until a shell is created for a row with more identifiers
than its own: that one matches as well, and nobody guesses.
-/

namespace Dataspace.Registry

open Scripted (registrySurroundings)
open Scripted.Registry

variable {M : Memory} [DecidableEq M.Key]

structure Visit where
  row : TwinRow
  spec : SubmodelSpec
  fuel : Nat
  enough : 9 ≤ fuel

def visit (settings : ReconcileSettings) (s : Session registrySurroundings M) (v : Visit) :
    Session registrySurroundings M × Option (Outcome (Except ReconcileError Reconciled)) :=
  s.run v.fuel (reconcile settings v.row v.spec)

def visits (settings : ReconcileSettings) (s : Session registrySurroundings M) (vs : List Visit) :
    Session registrySurroundings M :=
  vs.foldl (fun s v => (visit settings s v).1) s

/-- The shell that was created, if its identifiers are more than these. -/
def rival? (ids carried : List SpecificAssetId) :
    Option (Outcome (Except ReconcileError Reconciled)) → Option String
  | some (.value (.ok x)) =>
      if x.shellCreated ∧ ids ⊆ carried ∧ ¬ carried ⊆ ids then some x.shellId else none
  | _ => none

/-- The shells that are created for rows with more identifiers than these. -/
def rivals (settings : ReconcileSettings) (ids : List SpecificAssetId) :
    Session registrySurroundings M → List Visit → List String
  | _, [] => []
  | s, v :: vs =>
      (rival? ids (wanted settings v.row) (visit settings s v).2).toList ++
        rivals settings ids (visit settings s v).1 vs

section Visits

variable {settings : ReconcileSettings} {s : Session registrySurroundings M}

theorem visit_reliable (hreliable : s.shared.world.Reliable) (v : Visit) :
    (visit settings s v).1.shared.world.Reliable := by
  have hkeep := (reconcile_deals (M := M) settings v.row v.spec s.shared.world).keep Reliable
    fun r c h => h.receive c
  exact (Session.run_solo v.fuel (hkeep s.shared rfl)).2 hreliable

theorem visits_reliable (hreliable : s.shared.world.Reliable) (vs : List Visit) :
    (visits settings s vs).shared.world.Reliable := by
  induction vs generalizing s with
  | nil => exact hreliable
  | cons v vs ih => exact ih (visit_reliable hreliable v)

theorem visit_decided (hreliable : s.shared.world.Reliable) (v : Visit) :
    ∃ o, (visit settings s v).2 = some o ∧ Decided (wanted settings v.row) s.shared.world
      (visit settings s v).1.shared.world o := by
  have hdeals := reconcile_deals (M := M) settings v.row v.spec s.shared.world s.shared rfl
  obtain ⟨o, ho⟩ := Option.ne_none_iff_exists'.1
    (Session.run_brief hdeals (reconcile_brief settings v.row v.spec) v.enough)
  have hattempted := Session.run_solo v.fuel hdeals
  rw [ho] at hattempted
  exact ⟨o, ho, hattempted.decided hreliable⟩

/-- The row that is visited has a single shell from then on, if it is given one. -/
theorem lookup_of_visit (hreliable : s.shared.world.Reliable) {v : Visit} {x : Reconciled}
    (hx : (visit settings s v).2 = some (.value (.ok x))) :
    (visit settings s v).1.shared.world.lookup (wanted settings v.row) = [x.shellId] := by
  obtain ⟨o, ho, hdecided⟩ := visit_decided hreliable v
  cases ho.symm.trans hx
  cases hdecided with
  | created hnone _ hindex =>
      rw [lookup_of_index hindex, hnone, if_pos (List.Subset.refl _), List.nil_append]
  | found hlookup _ hindex => rw [lookup_congr hindex, hlookup]

/-- Identifiers among those of a shell that is found are found as well. -/
theorem lookup_ne_nil_of_subset {r : Scripted.Registry} {ids fewer : List SpecificAssetId}
    (hsubset : fewer ⊆ ids) (h : r.lookup ids ≠ []) : r.lookup fewer ≠ [] := by
  obtain ⟨shellId, hmem⟩ := List.exists_mem_of_ne_nil _ h
  obtain ⟨shell, hshell, hid, hids⟩ := mem_lookup_iff.1 hmem
  exact List.ne_nil_of_mem (mem_lookup_iff.2 ⟨shell, hshell, hid, List.Subset.trans hsubset hids⟩)

/-- What one more visit adds to what is found. -/
theorem lookup_visit {ids : List SpecificAssetId} (hreliable : s.shared.world.Reliable)
    (hids : s.shared.world.lookup ids ≠ []) (v : Visit) :
    (visit settings s v).1.shared.world.lookup ids = s.shared.world.lookup ids ++
      (rival? ids (wanted settings v.row) (visit settings s v).2).toList := by
  obtain ⟨o, ho, hdecided⟩ := visit_decided hreliable v
  rw [ho]
  cases hdecided with
  | created hnone hnew hindex =>
      -- where the row had no shell, its identifiers are not among those that have one
      have hmore : ¬ wanted settings v.row ⊆ ids := fun hsubset =>
        lookup_ne_nil_of_subset hsubset hids hnone
      rw [lookup_of_index hindex]
      congr 1
      by_cases hsubset : ids ⊆ wanted settings v.row
      · simp [rival?, hnew, hsubset, hmore]
      · simp [rival?, hsubset]
  | found _ hold hindex => simp [rival?, hold, lookup_congr hindex]
  | ambiguous _ halike => simp [rival?, halike.lookup]

theorem lookup_visits {ids : List SpecificAssetId} (hreliable : s.shared.world.Reliable)
    (hids : s.shared.world.lookup ids ≠ []) (vs : List Visit) :
    (visits settings s vs).shared.world.lookup ids =
      s.shared.world.lookup ids ++ rivals settings ids s vs := by
  induction vs generalizing s with
  | nil => exact (List.append_nil _).symm
  | cons v vs ih =>
      have hstep : (visit settings s v).1.shared.world.lookup ids = s.shared.world.lookup ids ++
          (rival? ids (wanted settings v.row) (visit settings s v).2).toList :=
        lookup_visit hreliable hids v
      have hstill : (visit settings s v).1.shared.world.lookup ids ≠ [] := by
        rw [hstep]
        exact List.append_ne_nil_of_left_ne_nil hids _
      rw [rivals, ← List.append_assoc, ← hstep]
      exact ih (visit_reliable hreliable v) hstill

/-- Rows whose identifiers do not go beyond these give them no rivals. -/
theorem rivals_eq_nil {ids : List SpecificAssetId} {vs : List Visit}
    (h : ∀ u ∈ vs, ids ⊆ wanted settings u.row → wanted settings u.row ⊆ ids) :
    rivals settings ids s vs = [] := by
  induction vs generalizing s with
  | nil => rfl
  | cons v vs ih =>
      have hrival : rival? ids (wanted settings v.row) (visit settings s v).2 = none := by
        unfold rival?
        split
        · rw [if_neg]
          rintro ⟨-, hsubset, hmore⟩
          exact hmore (h v List.mem_cons_self hsubset)
        · rfl
      rw [rivals, hrival]
      exact ih fun u hu => h u (List.mem_cons_of_mem v hu)

/-- A row with a shell is given it again, if no other shell matches.  Else the row fails with all
of them, and the twins stay as they are. -/
inductive Revisited (ids : List SpecificAssetId) (shellId : String) (r after : Scripted.Registry) :
    List String → Option (Outcome (Except ReconcileError Reconciled)) → Prop where
  | kept {x : Reconciled} : x.shellId = shellId → x.shellCreated = false →
      Revisited ids shellId r after [] (some (.value (.ok x)))
  | refused {more : List String} : more ≠ [] → r.Alike after →
      Revisited ids shellId r after more
        (some (.value (.error (.multipleShells (shown ids) (shellId :: more)))))

theorem visit_of_lookup (hreliable : s.shared.world.Reliable) {v : Visit} {shellId : String}
    {more : List String}
    (hlookup : s.shared.world.lookup (wanted settings v.row) = shellId :: more) :
    Revisited (wanted settings v.row) shellId s.shared.world
      (visit settings s v).1.shared.world more (visit settings s v).2 := by
  obtain ⟨o, ho, hdecided⟩ := visit_decided hreliable v
  rw [ho]
  cases hdecided with
  | created hnone _ _ => cases hlookup.symm.trans hnone
  | found hfound hold _ =>
      cases hlookup.symm.trans hfound
      exact .kept rfl hold
  | ambiguous hmany halike =>
      rw [hlookup] at hmany ⊢
      apply Revisited.refused _ halike
      rintro rfl
      simp at hmany

/-- What a row finds after it has got its shell. -/
theorem lookup_since (hreliable : s.shared.world.Reliable) {v : Visit} {x : Reconciled}
    (hx : (visit settings s v).2 = some (.value (.ok x))) (later : List Visit) :
    (visits settings (visit settings s v).1 later).shared.world.lookup (wanted settings v.row) =
      x.shellId :: rivals settings (wanted settings v.row) (visit settings s v).1 later := by
  have hlookup := lookup_of_visit hreliable hx
  rw [lookup_visits (visit_reliable hreliable v) (by rw [hlookup]; exact List.cons_ne_nil _ _),
    hlookup, List.singleton_append]

/-- A row that has got its shell is given the same one, whatever other rows come in between,
unless one of them has got a shell of its own for more identifiers.  Then the row fails with all
of these shells, and nothing is changed. -/
theorem shell_kept_without_rivals (settings : ReconcileSettings)
    (s : Session registrySurroundings M) (hreliable : s.shared.world.Reliable)
    (before later : List Visit) (v w : Visit) (hrow : w.row = v.row) (x : Reconciled)
    (hx : (visit settings (visits settings s before) v).2 = some (.value (.ok x))) :
    let ids := wanted settings v.row
    let got := (visit settings (visits settings s before) v).1
    let last := visit settings (visits settings got later) w
    Revisited ids x.shellId (visits settings got later).shared.world last.1.shared.world
      (rivals settings ids got later) last.2 ∧
    ((∀ u ∈ later, ids ⊆ wanted settings u.row → wanted settings u.row ⊆ ids) →
      rivals settings ids got later = []) := by
  intro ids got last
  have hbefore : (visits settings s before).shared.world.Reliable :=
    visits_reliable hreliable before
  have hlookup : (visits settings got later).shared.world.lookup (wanted settings w.row) =
      x.shellId :: rivals settings ids got later := by
    rw [hrow]
    exact lookup_since hbefore hx later
  constructor
  · have hlast := visit_of_lookup (visits_reliable (visit_reliable hbefore v) later) hlookup
    rw [hrow] at hlast
    exact hlast
  · exact rivals_eq_nil

end Visits

namespace Bolts

def boltVisit (extra : Option SpecificAssetId) : Visit :=
  ⟨bolt 1 extra, part, 9, Nat.le_refl 9⟩

def customer : SpecificAssetId :=
  ⟨"customerPartId", "C1"⟩

/-- Where the bolt with more identifiers comes first, both have one shell, and keep it. -/
theorem bolt_shell_kept :
    beginning.shared.world.Reliable ∧
    (visit settings (visits settings beginning [boltVisit (some customer)]) (boltVisit none)).2 =
      some (.value (.ok ⟨Uuid.urn 1, Uuid.urn 3, false, false⟩)) ∧
    Revisited (wanted settings (bolt 1 none)) (Uuid.urn 1)
      (visits settings beginning
        [boltVisit (some customer), boltVisit none, boltVisit (some customer)]).shared.world
      (visits settings beginning [boltVisit (some customer), boltVisit none,
        boltVisit (some customer), boltVisit none]).shared.world []
      (visit settings (visits settings beginning
        [boltVisit (some customer), boltVisit none, boltVisit (some customer)])
        (boltVisit none)).2 := by
  have hreliable : beginning.shared.world.Reliable := ⟨rfl, rfl⟩
  have hfirst : (visit settings (visits settings beginning [boltVisit (some customer)])
      (boltVisit none)).2 = some (.value (.ok ⟨Uuid.urn 1, Uuid.urn 3, false, false⟩)) := by
    decide +kernel
  have hrivals : rivals settings (wanted settings (bolt 1 none))
      (visit settings (visits settings beginning [boltVisit (some customer)]) (boltVisit none)).1
      [boltVisit (some customer)] = [] := by
    decide +kernel
  refine ⟨hreliable, hfirst, ?_⟩
  rw [← hrivals]
  exact (shell_kept_without_rivals settings beginning hreliable [boltVisit (some customer)]
    [boltVisit (some customer)] (boltVisit none) (boltVisit none) rfl _ hfirst).1

/-- A bolt gets its shell, then the same bolt with one
identifier more gets another, and now the first one fails. -/
theorem bolt_shell_lost :
    (visit settings beginning (boltVisit none)).2 =
        some (.value (.ok ⟨Uuid.urn 1, Uuid.urn 3, true, true⟩)) ∧
      (visit settings (visits settings beginning [boltVisit none]) (boltVisit (some customer))).2 =
        some (.value (.ok ⟨Uuid.urn 4, Uuid.urn 6, true, true⟩)) ∧
      (visit settings (visits settings beginning [boltVisit none, boltVisit (some customer)])
          (boltVisit none)).2 =
        some (.value (.error (.multipleShells
          "partInstanceId=P1,manufacturerPartId=M1,manufacturerId=BPNL1"
          [Uuid.urn 1, Uuid.urn 4]))) := by
  decide +kernel

end Bolts

end Dataspace.Registry
