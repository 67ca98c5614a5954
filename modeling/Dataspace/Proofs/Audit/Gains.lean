import Dataspace.Proofs.Audit.Store
import Dataspace.Proofs.Uuid
/-!
What a store gains.  A store that is there takes every record with a
new id: what it held before stays, and it lists the new record with
the others of its process.  Main statement: `Store.offered_gains`.
-/

namespace Dataspace.Audit

/-! ## Rows that can all be read -/

section MapM

variable {α β ε : Type} {f : α → Except ε β} {l l' : List α} {xs : List β}

theorem forall_ok_of_mapM (h : l.mapM f = .ok xs) : ∀ a ∈ l, ∃ x, f a = .ok x := by
  induction l generalizing xs with
  | nil => exact List.forall_mem_nil _
  | cons a l ih =>
      rw [List.mapM_cons] at h
      cases ha : f a with
      | error e =>
          rw [ha] at h
          cases h
      | ok x =>
          cases hl : l.mapM f with
          | error e =>
              rw [ha, hl] at h
              cases h
          | ok rest => exact List.forall_mem_cons.2 ⟨⟨x, ha⟩, ih hl⟩

theorem mapM_of_forall_ok (h : ∀ a ∈ l, ∃ x, f a = .ok x) :
    l.mapM f = .ok (l.filterMap fun a => (f a).toOption) := by
  induction l with
  | nil => rfl
  | cons a l ih =>
      obtain ⟨⟨x, hx⟩, hrest⟩ := List.forall_mem_cons.1 h
      rw [List.mapM_cons, hx, ih hrest, List.filterMap_cons, hx]
      rfl

theorem eq_filterMap_of_mapM (h : l.mapM f = .ok xs) :
    xs = l.filterMap fun a => (f a).toOption :=
  Except.ok.inj (h.symm.trans (mapM_of_forall_ok (forall_ok_of_mapM h)))

end MapM

namespace Store

/-! ## What is there before and after -/

def rows : Store → List Row
  | .memory records => records.map Row.ofRecord
  | .table t => t.rows
  | .down => []

/-- The store is there, and none of its rows has the id of one of the next numbers. -/
def Takes (taken numbers : Nat) : Store → Prop
  | .memory _ => True
  | .table t => t.isMade = true ∧ taken + numbers < 2 ^ 122 ∧
      ∀ n, taken < n → n ≤ taken + numbers → ∀ row ∈ t.rows, row.id ≠ Uuid.text n
  | .down => False

/-- The store has these records besides what it had before, and lists them with the records of their
processes. -/
structure Gains (before after : Store) (added : List NegotiationRecord) : Prop where
  rows : after.rows.Perm (before.rows ++ added.map Row.ofRecord)
  lists : ∀ processId listed, before.listByProcess processId = .ok listed →
    ∃ listed', after.listByProcess processId = .ok listed' ∧
      listed'.Perm (listed ++ added.filter (·.processId = processId))

/-- A table takes records whose ids are new and different. -/
theorem offered_table {rows : List Row} {rs : List NegotiationRecord}
    (hnodup : (rs.map (·.id)).Nodup) (hnew : ∀ r ∈ rs, ∀ row ∈ rows, row.id ≠ r.id) :
    (Store.table ⟨true, rows⟩).offered rs = .table ⟨true, rows ++ rs.map Row.ofRecord⟩ := by
  induction rs generalizing rows with
  | nil => rw [List.map_nil, List.append_nil]; rfl
  | cons r rs ih =>
      obtain ⟨hr, hrest⟩ := List.forall_mem_cons.1 hnew
      rw [List.map_cons, List.nodup_cons] at hnodup
      have hinsert : ((Store.table ⟨true, rows⟩).insert r).1 =
          .table ⟨true, rows ++ [Row.ofRecord r]⟩ := by
        have hany : rows.any (·.id = r.id) = false := by simpa using hr
        simp [insert, Table.insert, hany]
      rw [offered, List.foldl_cons, hinsert, ← offered, ih hnodup.2, List.map_cons,
        List.append_assoc, List.singleton_append]
      intro q hq row hrow
      rcases List.mem_append.1 hrow with hrow | hrow
      · exact hrest q hq row hrow
      · obtain rfl := List.mem_singleton.1 hrow
        intro hid
        exact hnodup.1 (List.mem_map.2 ⟨q, hq, hid.symm⟩)

/-- Rows that are added are listed with the others. -/
theorem lists_table {rows : List Row} {rs : List NegotiationRecord} {processId : String}
    {listed : List NegotiationRecord}
    (h : (Store.table ⟨true, rows⟩).listByProcess processId = .ok listed) :
    ∃ listed', (Store.table ⟨true, rows ++ rs.map Row.ofRecord⟩).listByProcess processId =
        .ok listed' ∧ listed'.Perm (listed ++ rs.filter (·.processId = processId)) := by
  have hsorted : ∀ rows : List Row, (Table.ordered rows).Perm rows :=
    fun rows => List.mergeSort_perm ..
  have hrs : (rs.map Row.ofRecord).filter (fun row => row.processId = processId) =
      (rs.filter (·.processId = processId)).map Row.ofRecord := by
    rw [List.filter_map]
    rfl
  change (Table.ordered (rows.filter fun row => row.processId = processId)).mapM Row.toRecord =
    _ at h
  have hread := forall_ok_of_mapM h
  obtain rfl := eq_filterMap_of_mapM h
  have hall : ∀ row ∈ Table.ordered ((rows ++ rs.map Row.ofRecord).filter fun row =>
      row.processId = processId), ∃ r, row.toRecord = .ok r := by
    intro row hrow
    rw [(hsorted _).mem_iff, List.filter_append, List.mem_append, hrs, List.mem_map] at hrow
    rcases hrow with hrow | ⟨r, -, rfl⟩
    · exact hread row ((hsorted _).mem_iff.2 hrow)
    · exact ⟨r, Row.toRecord_ofRecord r⟩
  refine ⟨_, mapM_of_forall_ok hall, ((hsorted _).filterMap _).trans ?_⟩
  rw [List.filter_append, List.filterMap_append, hrs]
  refine ((hsorted _).filterMap _).symm.append (.of_eq ?_)
  rw [List.filterMap_map]
  refine (List.filterMap_congr fun r _ => ?_).trans List.filterMap_some
  rw [Function.comp_apply, Row.toRecord_ofRecord]
  rfl

/-- A store takes records with the ids of the next numbers. -/
theorem offered_gains {s : Store} {taken : Nat} {rs : List NegotiationRecord}
    (htakes : s.Takes taken rs.length)
    (hids : (rs.map (·.id)).Perm ((List.range' (taken + 1) rs.length).map Uuid.text)) :
    s.Gains (s.offered rs) rs := by
  cases s with
  | memory records =>
      rw [offered_records]
      refine ⟨by rw [rows, rows, List.map_append], fun processId listed h => ?_⟩
      cases h
      exact ⟨_, rfl, by rw [List.filter_append]⟩
  | table t =>
      obtain ⟨made, rows⟩ := t
      obtain ⟨rfl, hroom, hnew⟩ := htakes
      have hnodup : (rs.map (·.id)).Nodup := by
        refine hids.nodup_iff.2 (.map_on (fun m hm n hn h => ?_) List.nodup_range')
        rw [List.mem_range'_1] at hm hn
        exact Uuid.text_inj (by omega) (by omega) h
      have hfresh : ∀ r ∈ rs, ∀ row ∈ rows, row.id ≠ r.id := by
        intro r hr row hrow
        obtain ⟨n, hn, htext⟩ := List.mem_map.1 (hids.mem_iff.1 (List.mem_map_of_mem hr))
        rw [List.mem_range'_1] at hn
        rw [← htext]
        exact hnew n (by omega) (by omega) row hrow
      rw [offered_table hnodup hfresh]
      exact ⟨.refl _, fun processId listed h => lists_table h⟩
  | down => exact htakes.elim

theorem Gains.of_perm {before after : Store} {added added' : List NegotiationRecord}
    (h : before.Gains after added) (hperm : added.Perm added') : before.Gains after added' := by
  refine ⟨h.rows.trans ((hperm.map _).append_left _), fun processId listed hlisted => ?_⟩
  obtain ⟨listed', hlisted', hadded⟩ := h.lists processId listed hlisted
  exact ⟨listed', hlisted', hadded.trans ((hperm.filter _).append_left _)⟩

end Store

end Dataspace.Audit
