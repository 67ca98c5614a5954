import Dataspace.Audit.Store
import Dataspace.Proofs.Audit.Order
import Mathlib.Data.List.Nodup
import Mathlib.Data.Prod.Lex
/-!
What the stores list.  The table keeps the first record of each id and refuses all others without a
change.  It lists the records of a process in the order of time, so that the list says nothing of
the order in which they were added; a store in memory lists the same records.
-/

namespace Dataspace

/-- The record is the older one, or the one with the lesser id at the same moment. -/
def NegotiationRecord.Earlier (a b : NegotiationRecord) : Prop :=
  a.timestamp.parts < b.timestamp.parts ∨ a.timestamp = b.timestamp ∧ a.id < b.id

instance (a b : NegotiationRecord) : Decidable (a.Earlier b) :=
  inferInstanceAs (Decidable (_ ∨ _))

theorem NegotiationRecord.Earlier.asymm {a b : NegotiationRecord} (hab : a.Earlier b) :
    ¬ b.Earlier a := by
  rcases hab with hlt | ⟨htime, hid⟩
  · rintro (hgt | ⟨htime, -⟩)
    · exact lt_asymm hlt hgt
    · simp [htime] at hlt
  · rintro (hgt | ⟨-, hid'⟩)
    · simp [htime] at hgt
    · exact lt_asymm hid hid'

/-- Records in this order have one arrangement only. -/
theorem NegotiationRecord.eq_of_earlier {rs others : List NegotiationRecord}
    (hrs : rs.Pairwise Earlier) (hothers : others.Pairwise Earlier)
    (h : ∀ r, r ∈ rs ↔ r ∈ others) : rs = others := by
  have hne {a b : NegotiationRecord} (hab : a.Earlier b) : a ≠ b := by
    rintro rfl
    exact hab.asymm hab
  have hperm : rs.Perm others :=
    (List.perm_ext_iff_of_nodup (hrs.imp hne) (hothers.imp hne)).2 h
  exact hperm.eq_of_pairwise (fun _ _ _ _ hab hba => absurd hba hab.asymm) hrs hothers

namespace Audit

/-! ## Rows and their order -/

namespace Row

theorem precedes_iff {a b : Row} :
    a.precedes b = true ↔ toLex (a.sortText, a.id) ≤ toLex (b.sortText, b.id) := by
  simp [precedes, Prod.Lex.le_iff]

theorem precedes_trans {a b c : Row} (hab : a.precedes b) (hbc : b.precedes c) : a.precedes c :=
  precedes_iff.2 ((precedes_iff.1 hab).trans (precedes_iff.1 hbc))

theorem precedes_total (a b : Row) : (a.precedes b || b.precedes a) = true := by
  rw [Bool.or_eq_true, precedes_iff, precedes_iff]
  exact le_total _ _

/-- Rows of different ids are in the order of their records. -/
theorem earlier_of_precedes {a b : NegotiationRecord} (ha : a.timestamp.Dated)
    (hb : b.timestamp.Dated) (hid : a.id ≠ b.id)
    (h : (ofRecord a).precedes (ofRecord b)) : a.Earlier b := by
  rw [precedes_iff, Prod.Lex.toLex_le_toLex] at h
  rcases h with hlt | ⟨htext, hle⟩
  · exact .inl ((Moment.textWith_lt_iff ha hb).1 hlt)
  · exact .inr ⟨(Moment.textWith_inj ha hb).1 htext, lt_of_le_of_ne hle hid⟩

theorem mapM_toRecord (rs : List NegotiationRecord) :
    (rs.map ofRecord).mapM toRecord = .ok rs := by
  induction rs with
  | nil => rfl
  | cons r rs ih =>
      rw [List.map_cons, List.mapM_cons, toRecord_ofRecord, ih]
      rfl

end Row

/-! ## What is kept of the records that were offered -/

/-- The records that are kept once another is offered: the first of an id stays the only one. -/
def keep (kept : List NegotiationRecord) (r : NegotiationRecord) : List NegotiationRecord :=
  if kept.any (·.id = r.id) then kept else kept ++ [r]

/-- Among the records that were offered, this is the first of its id. -/
def Kept (rs : List NegotiationRecord) (r : NegotiationRecord) : Prop :=
  rs.find? (·.id = r.id) = some r

instance (rs : List NegotiationRecord) (r : NegotiationRecord) : Decidable (Kept rs r) :=
  inferInstanceAs (Decidable (_ = _))

theorem nodup_keep {kept : List NegotiationRecord} (h : (kept.map (·.id)).Nodup)
    (r : NegotiationRecord) : ((keep kept r).map (·.id)).Nodup := by
  rw [keep]
  split
  case isTrue => exact h
  case isFalse hnew =>
    have hlast : r.id ∉ kept.map (·.id) := by simpa using hnew
    simpa using h.concat hlast

theorem nodup_kept (rs : List NegotiationRecord) :
    ((rs.foldl keep []).map (·.id)).Nodup := by
  have hrun (kept : List NegotiationRecord) (h : (kept.map (·.id)).Nodup) :
      ((rs.foldl keep kept).map (·.id)).Nodup := by
    induction rs generalizing kept with
    | nil => exact h
    | cons r rs ih => exact ih _ (nodup_keep h r)
  exact hrun [] List.nodup_nil

theorem find?_keep (kept : List NegotiationRecord) (r : NegotiationRecord) (id : String) :
    (keep kept r).find? (·.id = id) = (kept ++ [r]).find? (·.id = id) := by
  rw [keep]
  split
  case isTrue hold =>
    by_cases hid : r.id = id
    · have hfound : (kept.find? (·.id = id)).isSome := by
        rw [List.find?_isSome]
        simpa [hid] using hold
      rw [List.find?_append, Option.or_of_isSome hfound]
    · simp [List.find?_append, hid]
  case isFalse => rfl

theorem find?_kept (rs : List NegotiationRecord) (id : String) :
    (rs.foldl keep []).find? (·.id = id) = rs.find? (·.id = id) := by
  have hrun (kept : List NegotiationRecord) :
      (rs.foldl keep kept).find? (·.id = id) = (kept ++ rs).find? (·.id = id) := by
    induction rs generalizing kept with
    | nil => simp
    | cons r rs ih =>
        rw [List.foldl_cons, ih, List.find?_append, find?_keep, ← List.find?_append,
          List.append_assoc, List.singleton_append]
  simpa using hrun []

theorem mem_kept_iff {rs : List NegotiationRecord} {r : NegotiationRecord} :
    r ∈ rs.foldl keep [] ↔ Kept rs r := by
  rw [Kept, ← find?_kept]
  constructor
  · intro hmem
    have hfound : ((rs.foldl keep []).find? (·.id = r.id)).isSome := by
      rw [List.find?_isSome]
      exact ⟨r, hmem, by simp⟩
    obtain ⟨q, hq⟩ := Option.isSome_iff_exists.1 hfound
    have hid : q.id = r.id := by simpa using List.find?_some hq
    obtain rfl : q = r :=
      List.inj_on_of_nodup_map (nodup_kept rs) (List.mem_of_find?_eq_some hq) hmem hid
    exact hq
  · exact List.mem_of_find?_eq_some

/-! ## The table -/

namespace Store

def offered (s : Store) (rs : List NegotiationRecord) : Store :=
  rs.foldl (fun s r => (s.insert r).1) s

def fresh : Store :=
  .table Table.absent.migrate

theorem insert_rows (kept : List NegotiationRecord) (r : NegotiationRecord) :
    (Store.table ⟨true, kept.map Row.ofRecord⟩).insert r =
      (.table ⟨true, (keep kept r).map Row.ofRecord⟩,
        if ∃ q ∈ kept, q.id = r.id then .error .notUnique else .ok ()) := by
  have hany : (kept.map Row.ofRecord).any (·.id = r.id) = kept.any (·.id = r.id) := by
    rw [List.any_map]
    rfl
  by_cases hold : ∃ q ∈ kept, q.id = r.id
  · have hkept : kept.any (·.id = r.id) = true := by simpa using hold
    simp only [insert, Table.insert, keep, hany, hkept, if_pos hold]
    rfl
  · have hkept : kept.any (·.id = r.id) = false := by simpa using hold
    simp only [insert, Table.insert, keep, hany, hkept, if_neg hold]
    simp

theorem offered_fresh (rs : List NegotiationRecord) :
    fresh.offered rs = .table ⟨true, (rs.foldl keep []).map Row.ofRecord⟩ := by
  have hrun (kept : List NegotiationRecord) :
      (Store.table ⟨true, kept.map Row.ofRecord⟩).offered rs =
        .table ⟨true, (rs.foldl keep kept).map Row.ofRecord⟩ := by
    induction rs generalizing kept with
    | nil => rfl
    | cons r rs ih =>
        rw [List.foldl_cons, ← ih, offered, List.foldl_cons, insert_rows]
        rfl
  exact hrun []

/-- Records of different ids in the order in which a table lists their rows. -/
theorem listByProcess_rows (kept : List NegotiationRecord) (processId : String) :
    (Store.table ⟨true, kept.map Row.ofRecord⟩).listByProcess processId =
      .ok ((kept.filter (·.processId = processId)).mergeSort
        fun a b => (Row.ofRecord a).precedes (Row.ofRecord b)) := by
  have hrows : (kept.map Row.ofRecord).filter (·.processId = processId) =
      (kept.filter (·.processId = processId)).map Row.ofRecord := by
    rw [List.filter_map]
    rfl
  simp only [listByProcess, Table.listByProcess, Table.select, Table.ordered, hrows]
  have hsorted := List.map_mergeSort (s := Row.precedes) (f := Row.ofRecord)
    (l := kept.filter (·.processId = processId)) fun _ _ _ _ => rfl
  rw [← hsorted, Row.mapM_toRecord]
  rfl

theorem pairwise_earlier {rs : List NegotiationRecord} (hdated : ∀ r ∈ rs, r.timestamp.Dated)
    (hnodup : (rs.map (·.id)).Nodup) :
    (rs.mergeSort fun a b => (Row.ofRecord a).precedes (Row.ofRecord b)).Pairwise
      NegotiationRecord.Earlier := by
  have hperm := List.mergeSort_perm rs fun a b => (Row.ofRecord a).precedes (Row.ofRecord b)
  have hsorted := @List.pairwise_mergeSort _
    (fun a b : NegotiationRecord => (Row.ofRecord a).precedes (Row.ofRecord b))
    (fun _ _ _ => Row.precedes_trans) (fun _ _ => Row.precedes_total _ _) rs
  have hids := List.pairwise_map.1 ((hperm.map (·.id)).nodup_iff.2 hnodup)
  refine (hsorted.and hids).imp_of_mem ?_
  rintro a b ha hb ⟨hle, hid⟩
  exact Row.earlier_of_precedes (hdated a (hperm.subset ha)) (hdated b (hperm.subset hb)) hid hle

/-- The records of a process, as the table lists them once these were offered. -/
def listing (rs : List NegotiationRecord) (processId : String) : List NegotiationRecord :=
  ((rs.foldl keep []).filter (·.processId = processId)).mergeSort
    fun a b => (Row.ofRecord a).precedes (Row.ofRecord b)

theorem listByProcess_fresh (rs : List NegotiationRecord) (processId : String) :
    (fresh.offered rs).listByProcess processId = .ok (listing rs processId) := by
  rw [offered_fresh, listByProcess_rows, listing]

theorem listing_perm (rs : List NegotiationRecord) (processId : String) :
    (listing rs processId).Perm ((rs.foldl keep []).filter (·.processId = processId)) :=
  List.mergeSort_perm _ _

theorem mem_listing_iff {rs : List NegotiationRecord} {processId : String}
    {r : NegotiationRecord} : r ∈ listing rs processId ↔ Kept rs r ∧ r.processId = processId := by
  rw [(listing_perm rs processId).mem_iff, List.mem_filter, mem_kept_iff, decide_eq_true_iff]

theorem listing_pairwise {rs : List NegotiationRecord}
    (hdated : ∀ r, Kept rs r → r.timestamp.Dated) (processId : String) :
    (listing rs processId).Pairwise NegotiationRecord.Earlier := by
  apply pairwise_earlier
  · intro r hr
    exact hdated r (mem_kept_iff.1 (List.mem_of_mem_filter hr))
  · exact (nodup_kept rs).sublist (List.filter_sublist.map _)

theorem listing_congr {rs others : List NegotiationRecord}
    (hdated : ∀ r, Kept rs r → r.timestamp.Dated) (h : ∀ r, Kept others r ↔ Kept rs r)
    (processId : String) : listing others processId = listing rs processId := by
  apply NegotiationRecord.eq_of_earlier
  · exact listing_pairwise (fun r hr => hdated r ((h r).1 hr)) processId
  · exact listing_pairwise hdated processId
  · intro r
    rw [mem_listing_iff, mem_listing_iff, h]

theorem insert_fresh_iff (rs : List NegotiationRecord) (r : NegotiationRecord) :
    ((fresh.offered rs).insert r).2 ≠ .ok () ↔ ∃ q, Kept rs q ∧ q.id = r.id := by
  have hold : (∃ q, Kept rs q ∧ q.id = r.id) ↔ ∃ q ∈ rs.foldl keep [], q.id = r.id := by
    simp only [mem_kept_iff]
  rw [offered_fresh, insert_rows, hold]
  split
  case isTrue h => simpa using h
  case isFalse h => simpa using h

theorem insert_fresh_of_error {rs : List NegotiationRecord} {r : NegotiationRecord}
    (h : ((fresh.offered rs).insert r).2 ≠ .ok ()) :
    (fresh.offered rs).insert r = (fresh.offered rs, .error .notUnique) := by
  obtain ⟨q, hq, hid⟩ := (insert_fresh_iff rs r).1 h
  have hold : ∃ q ∈ rs.foldl keep [], q.id = r.id := ⟨q, mem_kept_iff.2 hq, hid⟩
  rw [offered_fresh, insert_rows, if_pos hold, keep, if_pos (by simpa using hold)]

theorem offered_records (records rs : List NegotiationRecord) :
    (Store.memory records).offered rs = .memory (records ++ rs) := by
  induction rs generalizing records with
  | nil => simp [offered]
  | cons r rs ih =>
      have hrest := ih (records ++ [r])
      rwa [List.append_assoc] at hrest

theorem offered_memory (rs : List NegotiationRecord) :
    (Store.memory []).offered rs = .memory rs :=
  offered_records [] rs

/-- The table refuses a record whose id it has, and stays as it was.  It lists the first record of
each id, as it was offered, in the order of time and whatever the order of the inserts; a store in
memory to which the same records were given lists the same. -/
theorem table_lists_in_time_order (rs : List NegotiationRecord)
    (hdated : ∀ r ∈ rs, r.timestamp.Dated) :
    (∀ r,
      (((fresh.offered rs).insert r).2 ≠ .ok () ↔ ∃ q, Kept rs q ∧ q.id = r.id) ∧
      (((fresh.offered rs).insert r).2 ≠ .ok () →
        (fresh.offered rs).insert r = (fresh.offered rs, .error .notUnique))) ∧
    ∀ processId, ∃ listed,
      (fresh.offered rs).listByProcess processId = .ok listed ∧
      (∀ r, r ∈ listed ↔ Kept rs r ∧ r.processId = processId) ∧
      listed.Pairwise NegotiationRecord.Earlier ∧
      (∀ others, (∀ r, Kept others r ↔ Kept rs r) →
        (fresh.offered others).listByProcess processId = .ok listed) ∧
      ∀ given, (given.map (·.id)).Nodup → (∀ r, r ∈ given ↔ Kept rs r) →
        ∃ remembered, ((Store.memory []).offered given).listByProcess processId = .ok remembered ∧
          remembered.Perm listed := by
  have hkept (r : NegotiationRecord) (h : Kept rs r) : r.timestamp.Dated :=
    hdated r (List.mem_of_find?_eq_some h)
  constructor
  · intro r
    exact ⟨insert_fresh_iff rs r, insert_fresh_of_error⟩
  · intro processId
    refine ⟨listing rs processId, listByProcess_fresh rs processId, fun r => mem_listing_iff,
      listing_pairwise hkept processId, ?_, ?_⟩
    · intro others hothers
      rw [listByProcess_fresh, listing_congr hkept hothers]
    · intro given hnodup hgiven
      refine ⟨given.filter (·.processId = processId), by rw [offered_memory]; rfl, ?_⟩
      have hperm : given.Perm (rs.foldl keep []) := by
        rw [List.perm_ext_iff_of_nodup hnodup.of_map (nodup_kept rs).of_map]
        intro r
        rw [hgiven, mem_kept_iff]
      exact (hperm.filter _).trans (listing_perm rs processId).symm

/-- A negotiation that failed in a leap second. -/
def lost : NegotiationRecord :=
  ⟨"r0", "p", "BPNL1", "o2", none, .failedException, none, some "gone",
    ⟨2016, 12, 31, 23, 59, 60, 12000000⟩⟩

/-- One that was over a little later in the same second. -/
def agreed : NegotiationRecord :=
  ⟨"r1", "p", "BPNL1", "o1", some "n1", .negotiated, some "FINALIZED", none,
    ⟨2016, 12, 31, 23, 59, 60, 120000000⟩⟩

theorem agreed_listed_after_lost :
    (∀ r ∈ [agreed, lost, { lost with id := "r1" }], r.timestamp.Dated) ∧
      (fresh.offered [agreed, lost, { lost with id := "r1" }]).listByProcess "p" =
        .ok [lost, agreed] ∧
      ((fresh.offered [agreed, lost]).insert { lost with id := "r1" }).2 ≠ .ok () := by
  have hdated : ∀ r ∈ [agreed, lost, { lost with id := "r1" }], r.timestamp.Dated := by decide
  obtain ⟨-, hlists⟩ := table_lists_in_time_order _ hdated
  obtain ⟨listed, hlisted, hmem, hsorted, -⟩ := hlists "p"
  have hkept : ∀ r ∈ [agreed, lost, { lost with id := "r1" }],
      Kept [agreed, lost, { lost with id := "r1" }] r ∧ r.processId = "p" ↔
        r ∈ [lost, agreed] := by
    decide
  have hboth (r : NegotiationRecord) : r ∈ [lost, agreed] ↔ r ∈ listed := by
    rw [hmem]
    constructor
    · intro hr
      have hoffered : r ∈ [agreed, lost, { lost with id := "r1" }] := by
        simp only [List.mem_cons] at hr ⊢
        tauto
      exact (hkept r hoffered).2 hr
    · rintro ⟨hfirst, hprocess⟩
      exact (hkept r (List.mem_of_find?_eq_some hfirst)).1 ⟨hfirst, hprocess⟩
  obtain rfl := NegotiationRecord.eq_of_earlier (by decide) hsorted hboth
  exact ⟨hdated, hlisted, by decide⟩

end Store

end Audit

end Dataspace
