import Dataspace.Proofs.Task.Patience
import Dataspace.Proofs.Twin.Reconcile
import Dataspace.Proofs.Uuid
import Mathlib.Data.List.Nodup
/-!
What reconciling keeps in order in a twin registry, whatever rows it is done for and whatever calls
fail on the way.  A registry does not care how often a short id occurs in a shell: that it occurs
once is due to the list that is read before every submodel.
-/

namespace Dataspace.Registry

open Scripted (registrySurroundings)
open Scripted.Registry (addSubmodel receive_met)

/-! ## Shells -/

/-- Shells are told apart by their ids, and the submodels of each by their short ids. -/
structure Orderly (shells : List ShellDescriptor) : Prop where
  ids : (shells.map ShellDescriptor.id).Nodup
  shortIds : ∀ shell ∈ shells, (shell.submodels.map SubmodelDescriptor.idShort).Nodup

/-- Submodels may have been appended to a shell; nothing else of it has changed. -/
def Appended (shell after : ShellDescriptor) : Prop :=
  ∃ added, after = { shell with submodels := shell.submodels ++ added }

def submodelCount (shells : List ShellDescriptor) : Nat :=
  (shells.flatMap ShellDescriptor.submodels).length

/-- Every shell is still there, and may have got submodels; behind them there are new shells, each
with the identifiers of one of these lists, in their order; so many submodels were added at most. -/
def Extended (before after : List ShellDescriptor) (carried : List (List SpecificAssetId))
    (submodels : Nat) : Prop :=
  ∃ old new, after = old ++ new ∧ List.Forall₂ Appended before old ∧
    (new.map ShellDescriptor.specificAssetIds).Sublist carried ∧
    submodelCount after ≤ submodelCount before + submodels

theorem Appended.refl (shell : ShellDescriptor) : Appended shell shell :=
  ⟨[], by rw [List.append_nil]⟩

theorem Appended.trans {shell between after : ShellDescriptor} (first : Appended shell between)
    (second : Appended between after) : Appended shell after := by
  obtain ⟨added, rfl⟩ := first
  obtain ⟨added', rfl⟩ := second
  exact ⟨added ++ added', by rw [List.append_assoc]⟩

theorem forall₂_appended_trans {before between after : List ShellDescriptor}
    (first : List.Forall₂ Appended before between)
    (second : List.Forall₂ Appended between after) : List.Forall₂ Appended before after := by
  induction first generalizing after with
  | nil => exact second
  | cons hhead _ ih =>
      cases second with
      | cons hhead' htail' => exact .cons (hhead.trans hhead') (ih htail')

theorem map_carried_of_appended {before after : List ShellDescriptor}
    (h : List.Forall₂ Appended before after) :
    after.map ShellDescriptor.specificAssetIds = before.map ShellDescriptor.specificAssetIds := by
  induction h with
  | nil => rfl
  | cons hhead _ ih =>
      obtain ⟨added, rfl⟩ := hhead
      rw [List.map_cons, List.map_cons, ih]

section Extended

variable {before between after : List ShellDescriptor}
  {carried carried' : List (List SpecificAssetId)} {k k' : Nat}

theorem Extended.refl (before : List ShellDescriptor) : Extended before before [] 0 :=
  ⟨before, [], by rw [List.append_nil], List.forall₂_same.2 fun shell _ => .refl shell,
    List.Sublist.refl [], Nat.le_refl _⟩

theorem Extended.mono (h : Extended before after carried k) (hcarried : carried.Sublist carried')
    (hk : k ≤ k') : Extended before after carried' k' := by
  obtain ⟨old, new, rfl, hold, hnew, hcount⟩ := h
  exact ⟨old, new, rfl, hold, hnew.trans hcarried, Nat.le_trans hcount (Nat.add_le_add_left hk _)⟩

theorem Extended.trans (first : Extended before between carried k)
    (second : Extended between after carried' k') :
    Extended before after (carried ++ carried') (k + k') := by
  obtain ⟨old, new, rfl, hold, hnew, hcount⟩ := first
  obtain ⟨between', new', rfl, hbetween, hnew', hcount'⟩ := second
  have hold' := List.forall₂_take old.length hbetween
  have hgrown := List.forall₂_drop old.length hbetween
  rw [List.take_left] at hold'
  rw [List.drop_left] at hgrown
  refine ⟨between'.take old.length, between'.drop old.length ++ new', ?_,
    forall₂_appended_trans hold hold', ?_, by omega⟩
  · rw [← List.append_assoc, List.take_append_drop]
  · rw [List.map_append, map_carried_of_appended hgrown]
    exact hnew.append hnew'

/-- A new shell is behind the others. -/
theorem extended_of_shell (before : List ShellDescriptor) {shell : ShellDescriptor}
    (hbare : shell.submodels = []) :
    Extended before (before ++ [shell]) [shell.specificAssetIds] 0 := by
  refine ⟨before, [shell], rfl, List.forall₂_same.2 fun shell _ => .refl shell,
    List.Sublist.refl _, ?_⟩
  simp [submodelCount, hbare]

end Extended

/-- The shell that gets a submodel is the first with its id. -/
theorem exists_of_addSubmodel {shellId : String} {submodel : SubmodelDescriptor}
    {before after : List ShellDescriptor} (h : addSubmodel shellId submodel before = some after) :
    ∃ front shell back, before = front ++ shell :: back ∧ shell.id = shellId ∧
      after = front ++ { shell with submodels := shell.submodels ++ [submodel] } :: back := by
  induction before generalizing after with
  | nil => cases h
  | cons first rest ih =>
      unfold addSubmodel at h
      split at h
      · next hid =>
          obtain rfl := Option.some.inj h
          exact ⟨[], first, rest, rfl, hid, rfl⟩
      · obtain ⟨rest', hrest, rfl⟩ := Option.map_eq_some_iff.1 h
        obtain ⟨front, shell, back, rfl, hid, rfl⟩ := ih hrest
        exact ⟨first :: front, shell, back, rfl, hid, rfl⟩

theorem extended_of_addSubmodel {shellId : String} {submodel : SubmodelDescriptor}
    {before after : List ShellDescriptor} (h : addSubmodel shellId submodel before = some after) :
    Extended before after [] 1 := by
  obtain ⟨front, shell, back, rfl, -, rfl⟩ := exists_of_addSubmodel h
  refine ⟨_, [], (List.append_nil _).symm, ?_, List.Sublist.refl [], ?_⟩
  · exact List.rel_append (List.forall₂_same.2 fun shell _ => .refl shell)
      (.cons ⟨[submodel], rfl⟩ (List.forall₂_same.2 fun shell _ => .refl shell))
  · simp only [submodelCount, List.flatMap_append, List.flatMap_cons, List.length_append,
      List.length_singleton]
    omega

theorem Orderly.shell {before : List ShellDescriptor} (h : Orderly before) {shell : ShellDescriptor}
    (hnew : ∀ other ∈ before, other.id ≠ shell.id) (hbare : shell.submodels = []) :
    Orderly (before ++ [shell]) := by
  constructor
  · rw [List.map_append, List.map_singleton, List.nodup_append]
    refine ⟨h.ids, List.nodup_singleton _, ?_⟩
    intro id hid other hother
    obtain ⟨present, hpresent, rfl⟩ := List.mem_map.1 hid
    rw [List.mem_singleton.1 hother]
    exact hnew present hpresent
  · intro other hother
    rcases List.mem_append.1 hother with hother | hother
    · exact h.shortIds other hother
    · rw [List.mem_singleton.1 hother, hbare]
      exact List.nodup_nil

/-- A submodel with a short id that the list of its shell does not have. -/
theorem Orderly.submodel {before after : List ShellDescriptor} (h : Orderly before)
    {listed : ShellDescriptor} {submodel : SubmodelDescriptor} (hlisted : listed ∈ before)
    (hmissing : submodel.idShort ∉ listed.submodels.map SubmodelDescriptor.idShort)
    (hadd : addSubmodel listed.id submodel before = some after) : Orderly after := by
  obtain ⟨front, shell, back, rfl, hid, rfl⟩ := exists_of_addSubmodel hadd
  -- ids tell shells apart, so the shell that was listed is the one that gets the submodel
  obtain rfl : shell = listed :=
    List.inj_on_of_nodup_map h.ids (by simp) hlisted hid
  constructor
  · simpa using h.ids
  · intro other hother
    have hothers := h.shortIds other
    simp only [List.mem_append, List.mem_cons] at hother hothers
    rcases hother with hother | rfl | hother
    · exact hothers (.inl hother)
    · rw [List.map_append, List.map_singleton, List.nodup_append]
      refine ⟨h.shortIds shell (by simp), List.nodup_singleton _, ?_⟩
      intro present hpresent new hnew heq
      rw [heq, List.mem_singleton.1 hnew] at hpresent
      exact hmissing hpresent
    · exact hothers (.inr (.inr hother))

/-! ## Numbers -/

/-- The next so many numbers make ids that are all different, and that no shell has. -/
structure Fresh (shells : List ShellDescriptor) (n k : Nat) : Prop where
  distinct : ∀ i j, n < i → i < j → j ≤ n + k → Uuid.urn i ≠ Uuid.urn j
  unused : ∀ shell ∈ shells, ∀ i, n < i → i ≤ n + k → shell.id ≠ Uuid.urn i

theorem urn_inj {i j : Nat} (hi : i < 2 ^ 122) (hj : j < 2 ^ 122) (h : Uuid.urn i = Uuid.urn j) :
    i = j :=
  Uuid.text_inj hi hj (String.append_right_inj _ |>.1 h)

theorem fresh_of_lt {shells : List ShellDescriptor} {n k : Nat} (hbound : n + k < 2 ^ 122)
    (hunused : ∀ shell ∈ shells, ∀ i, n < i → i ≤ n + k → shell.id ≠ Uuid.urn i) :
    Fresh shells n k := by
  refine ⟨fun i j _ hlt hj h => ?_, hunused⟩
  exact absurd (urn_inj (by omega) (by omega) h) (by omega)

/-- What a stretch of calls has made of shells, with the last numbers taken before and after it. -/
structure Grown (carried : List (List SpecificAssetId)) (submodels numbers : Nat)
    (before : List ShellDescriptor) (n : Nat) (after : List ShellDescriptor) (n' : Nat) : Prop where
  orderly : Orderly after
  extended : Extended before after carried submodels
  named : ∀ shell ∈ after, (∃ old ∈ before, old.id = shell.id) ∨
    ∃ i, n < i ∧ i ≤ n' ∧ shell.id = Uuid.urn i
  le : n ≤ n'
  le_add : n' ≤ n + numbers

section Grown

variable {before between after : List ShellDescriptor} {n m n' : Nat}
  {carried carried' : List (List SpecificAssetId)} {k k' d d' : Nat}

theorem Grown.mono (h : Grown carried k d before n after n') (hcarried : carried.Sublist carried')
    (hk : k ≤ k') (hd : d ≤ d') : Grown carried' k' d' before n after n' :=
  ⟨h.orderly, h.extended.mono hcarried hk, h.named, h.le, by have := h.le_add; omega⟩

theorem grown_same (h : Orderly before) (hle : n ≤ n') (hd : n' ≤ n + d) :
    Grown carried k d before n before n' :=
  ⟨h, (Extended.refl before).mono (List.nil_sublist _) (Nat.zero_le _),
    fun shell hshell => .inl ⟨shell, hshell, rfl⟩, hle, hd⟩

theorem Grown.trans (first : Grown carried k d before n between m)
    (second : Grown carried' k' d' between m after n') :
    Grown (carried ++ carried') (k + k') (d + d') before n after n' := by
  refine ⟨second.orderly, first.extended.trans second.extended, ?_,
    Nat.le_trans first.le second.le, ?_⟩
  · intro shell hshell
    have := first.le
    have := second.le
    rcases second.named shell hshell with ⟨old, hold, hid⟩ | ⟨i, hi, hle, hid⟩
    · rcases first.named old hold with ⟨older, holder, hid'⟩ | ⟨i, hi, hle, hid'⟩
      · exact .inl ⟨older, holder, hid'.trans hid⟩
      · exact .inr ⟨i, hi, by omega, hid.symm.trans hid'⟩
    · exact .inr ⟨i, by omega, hle, hid⟩
  · have := first.le_add
    have := second.le_add
    omega

theorem Fresh.of_grown (h : Fresh before n (d + k'))
    (hgrown : Grown carried k d before n after n') :
    Fresh after n' k' := by
  have := hgrown.le
  have := hgrown.le_add
  constructor
  · intro i j hi hlt hj
    exact h.distinct i j (by omega) hlt (by omega)
  · intro shell hshell i hi hle
    rcases hgrown.named shell hshell with ⟨old, hold, hid⟩ | ⟨j, hj, hle', hid⟩
    · rw [← hid]
      exact h.unused old hold i (by omega) (by omega)
    · rw [hid]
      exact h.distinct j i hj (by omega) (by omega)

theorem Fresh.mono (h : Fresh before n k) (hle : k' ≤ k) : Fresh before n k' :=
  ⟨fun i j hi hlt hj => h.distinct i j hi hlt (by omega),
    fun shell hshell i hi hle' => h.unused shell hshell i hi (by omega)⟩

end Grown

theorem grown_shell {before : List ShellDescriptor} {n n' d i : Nat} (shell : ShellDescriptor)
    (h : Orderly before) (hfresh : Fresh before n d) (hid : shell.id = Uuid.urn i)
    (hbare : shell.submodels = []) (hi : n < i) (hle : i ≤ n') (hd : n' ≤ n + d) :
    Grown [shell.specificAssetIds] 0 d before n (before ++ [shell]) n' := by
  refine ⟨h.shell ?_ hbare, extended_of_shell before hbare, ?_, by omega, hd⟩
  · intro other hother
    rw [hid]
    exact hfresh.unused other hother i hi (by omega)
  · intro other hother
    rcases List.mem_append.1 hother with hother | hother
    · exact .inl ⟨other, hother, rfl⟩
    · exact .inr ⟨i, hi, hle, List.mem_singleton.1 hother ▸ hid⟩

theorem grown_submodel {before after : List ShellDescriptor} {n n' d : Nat}
    {listed : ShellDescriptor} {submodel : SubmodelDescriptor} (h : Orderly before)
    (hlisted : listed ∈ before)
    (hmissing : submodel.idShort ∉ listed.submodels.map SubmodelDescriptor.idShort)
    (hadd : addSubmodel listed.id submodel before = some after) (hle : n ≤ n') (hd : n' ≤ n + d) :
    Grown [] 1 d before n after n' := by
  refine ⟨h.submodel hlisted hmissing hadd, extended_of_addSubmodel hadd, ?_, hle, hd⟩
  obtain ⟨front, shell, back, rfl, -, rfl⟩ := exists_of_addSubmodel hadd
  intro other hother
  left
  simp only [List.mem_append, List.mem_cons] at hother
  rcases hother with hother | rfl | hother
  · exact ⟨other, by simp [hother], rfl⟩
  · exact ⟨shell, by simp, rfl⟩
  · exact ⟨other, by simp [hother], rfl⟩

/-! ## Registries -/

/-- What a call can make of shells: it is without effect, or creates what it is asked to. -/
inductive Changed (before : List ShellDescriptor) : Call → List ShellDescriptor → Prop where
  | unchanged {c : Call} : Changed before c before
  | shell {shell : ShellDescriptor} : Changed before (.createShell shell) (before ++ [shell])
  | submodel {shellId : String} {submodel : SubmodelDescriptor} {after : List ShellDescriptor} :
      addSubmodel shellId submodel before = some after →
      Changed before (.createSubmodel shellId submodel) after

theorem Changed.of_lookup {before after : List ShellDescriptor} {ids : List SpecificAssetId}
    (h : Changed before (.lookup ids) after) : after = before := by
  cases h
  rfl

theorem Changed.of_submodels {before after : List ShellDescriptor} {shellId : String}
    (h : Changed before (.submodels shellId) after) : after = before := by
  cases h
  rfl

/-- Surroundings that keep shells.  Any call can fail, be put off or crash, with or without an
effect, and nothing is asked of what a search finds, nor of ids that are said to have been
created: a list of submodels alone has to be that of a shell. -/
structure IsRegistry (S : Surroundings interface) (twins : S.State → List ShellDescriptor) :
    Prop where
  changes : ∀ {c : Call} {world world' : S.State} {response : Response (Answer c)},
    S.Meets c world world' response → Changed (twins world) c (twins world')
  lists : ∀ {shellId : String} {world world' : S.State} {found : List SubmodelDescriptor},
    S.Meets (Call.submodels shellId) world world' (.reply (Except.ok found)) →
    ∃ shell ∈ twins world', shell.id = shellId ∧ shell.submodels = found

theorem answer_changed (r : Scripted.Registry) (c : Call) :
    Changed r.shells c (r.answer c).1.shells := by
  cases c with
  | lookup ids => exact .unchanged
  | createShell shell =>
      simp only [Scripted.Registry.answer, Scripted.Registry.createShell]
      split
      · exact .unchanged
      · exact .shell
  | submodels shellId => exact .unchanged
  | createSubmodel shellId submodel =>
      simp only [Scripted.Registry.answer, Scripted.Registry.createSubmodel]
      split
      · exact .unchanged
      · next hadd => exact .submodel hadd

theorem exists_of_submodels {r : Scripted.Registry} {shellId : String}
    {found : List SubmodelDescriptor} (h : r.submodels shellId = .ok found) :
    ∃ shell ∈ r.shells, shell.id = shellId ∧ shell.submodels = found := by
  unfold Scripted.Registry.submodels at h
  split at h
  · next shell hfind =>
      exact ⟨shell, List.mem_of_find?_eq_some hfind,
        by simpa using List.find?_some hfind, Except.ok.inj h⟩
  · cases h

theorem changed_of_met {r after : Scripted.Registry} {c : Call} {response : Response (Answer c)}
    (h : r.Met c after response) : Changed r.shells c after.shells := by
  cases h with
  | broken _ halike => exact halike.shells ▸ .unchanged
  | failed _ _ halike => exact halike.shells ▸ .unchanged
  | @answered same halike _ => exact halike.shells ▸ answer_changed same c

theorem exists_of_met {r after : Scripted.Registry} {shellId : String}
    {found : List SubmodelDescriptor}
    (h : r.Met (.submodels shellId) after (.reply (Except.ok found))) :
    ∃ shell ∈ after.shells, shell.id = shellId ∧ shell.submodels = found := by
  generalize hreply : (Response.reply (Except.ok found) : Response (Answer (.submodels shellId))) =
    response at h
  cases h with
  | broken _ _ => cases hreply
  | failed _ _ _ => cases hreply
  | @answered same _ _ => exact exists_of_submodels (Response.reply.inj hreply).symm

theorem met_of_meets {r after : Scripted.Registry} {c : Call} {response : Response (Answer c)}
    (h : registrySurroundings.Meets c r after response) : r.Met c after response := by
  have hprompt : ∀ {r after : Scripted.Registry} {response : Response (Answer c)} millis,
      r.Met c after response → response ≠ .later millis := by
    rintro r after response millis (_ | _ | _) <;> nofun
  obtain ⟨rfl, rfl⟩ := h.of_prompt fun r millis => hprompt millis (receive_met r c)
  exact receive_met r c

/-- A registry in memory is one, whatever faults it has. -/
theorem registrySurroundings_isRegistry :
    IsRegistry registrySurroundings Scripted.Registry.shells :=
  ⟨fun h => changed_of_met (met_of_meets h), fun h => exists_of_met (met_of_meets h)⟩

section Reconcile

variable {S : Surroundings interface} {twins : S.State → List ShellDescriptor} {M : Memory}
  {α β : Type} {world : S.State} {n : Nat}

/-- A call may have had its effect even where it is not answered. -/
theorem IsRegistry.always_call (h : IsRegistry S twins) {c : Call}
    {next : Answer c → Work M α}
    {post : List ShellDescriptor → Nat → Option (Outcome α) → Prop}
    (hsilent : ∀ after o, Changed (twins world) c after → (∀ x, o ≠ some (.value x)) →
      post after n o)
    (hreply : ∀ world' a, S.Meets c world world' (.reply a) →
      (next a).Always (fun world => post (twins world)) world' n) :
    ((Program.call (I := interface) c : Work M (Answer c)) >>= next).Always
      (fun world => post (twins world)) world n :=
  ⟨hsilent _ _ .unchanged nofun, hreply,
    fun _ _ hmeets => hsilent _ _ (h.changes hmeets) nofun,
    fun _ _ hmeets => hsilent _ _ (h.changes hmeets) nofun⟩

/-- What a call makes of shells, and how it ends: where several shells are found, nothing is new. -/
structure Kept (carried : List (List SpecificAssetId)) (submodels numbers : Nat)
    (before : List ShellDescriptor) (n : Nat) (after : List ShellDescriptor) (n' : Nat)
    (o : Option (Outcome (Except ReconcileError α))) : Prop where
  grown : Grown carried submodels numbers before n after n'
  unchanged : ∀ identifiers found,
    o = some (.value (.error (.multipleShells identifiers found))) → after = before

theorem makeShell_always (h : IsRegistry S twins) (row : TwinRow) (b : BusinessIdentifiers)
    (horderly : Orderly (twins world)) (hfresh : Fresh (twins world) n 2) :
    (makeShell row b : Work M _).Always
      (fun world' => Kept [b.specificAssetIds] 0 2 (twins world) n (twins world')) world n := by
  have hcreate : ∀ asset n', n + 1 ≤ n' → n' ≤ n + 2 →
      (createShell (newShell row b (Uuid.urn (n + 1)) asset) >>= createdId : Work M _).Always
        (fun world' => Kept [b.specificAssetIds] 0 2 (twins world) n (twins world')) world n' := by
    intro asset n' hle hd
    have hgrown : ∀ after,
        Changed (twins world) (.createShell (newShell row b (Uuid.urn (n + 1)) asset)) after →
        Grown [b.specificAssetIds] 0 2 (twins world) n after n' := by
      rintro after (_ | _)
      · exact grown_same horderly (by omega) hd
      · exact grown_shell (newShell row b _ asset) horderly hfresh rfl rfl
          (Nat.lt_succ_self n) hle hd
    apply h.always_call
    · intro after o hchanged ho
      exact ⟨hgrown after hchanged, fun _ _ hmany => absurd hmany (ho _)⟩
    · intro world' a hmeets
      have hgrown := hgrown _ (h.changes hmeets)
      cases a with
      | error e => exact Program.always_pure ⟨hgrown, nofun⟩ ⟨hgrown, by cases e <;> nofun⟩
      | ok created => exact Program.always_pure ⟨hgrown, nofun⟩ ⟨hgrown, nofun⟩
  cases huuid : row.uuid with
  | some uuid =>
      rw [makeShell_of_some huuid]
      apply Program.always_serial ⟨grown_same horderly (Nat.le_refl n) (by omega), nofun⟩
      exact hcreate uuid (n + 1) (Nat.le_refl _) (by omega)
  | none =>
      rw [makeShell_of_none huuid]
      apply Program.always_serial ⟨grown_same horderly (Nat.le_refl n) (by omega), nofun⟩
      apply Program.always_serial ⟨grown_same horderly (by omega) (by omega), nofun⟩
      exact hcreate (Uuid.urn (n + 2)) (n + 2) (by omega) (Nat.le_refl _)

theorem shellOf_always (h : IsRegistry S twins) (settings : ReconcileSettings) (row : TwinRow)
    (horderly : Orderly (twins world)) (hfresh : Fresh (twins world) n 2) :
    (shellOf settings row : Work M _).Always
      (fun world' => Kept [wanted settings row] 0 2 (twins world) n (twins world')) world n := by
  have hsame : Grown [wanted settings row] 0 2 (twins world) n (twins world) n :=
    grown_same horderly (Nat.le_refl n) (Nat.le_add_right n 2)
  apply h.always_call
  · intro after o hchanged ho
    rw [hchanged.of_lookup]
    exact ⟨hsame, fun _ _ hmany => absurd hmany (ho _)⟩
  · intro world' a hmeets
    have htwins := (h.changes hmeets).of_lookup
    rw [← htwins] at hsame horderly hfresh ⊢
    rcases a with e | _ | ⟨shellId, _ | ⟨second, rest⟩⟩
    · exact Program.always_pure ⟨hsame, nofun⟩ ⟨hsame, by cases e <;> nofun⟩
    · apply (makeShell_always h row _ horderly hfresh).bind
      · exact fun _ _ hkept => ⟨hkept.grown, nofun⟩
      · exact fun _ _ _ hkept => ⟨hkept.grown, nofun⟩
      · intro world'' n' x hkept
        cases x with
        | error e =>
            refine Program.always_pure ⟨hkept.grown, nofun⟩ ⟨hkept.grown, ?_⟩
            rintro identifiers found ⟨⟩
            exact hkept.unchanged identifiers found rfl
        | ok id => exact Program.always_pure ⟨hkept.grown, nofun⟩ ⟨hkept.grown, nofun⟩
    · exact Program.always_pure ⟨hsame, nofun⟩ ⟨hsame, nofun⟩
    · exact Program.always_pure ⟨hsame, nofun⟩ ⟨hsame, fun _ _ _ => rfl⟩

/-- What the search for a submodel makes of shells.  It does not end with several shells. -/
structure Equipped (before : List ShellDescriptor) (n : Nat) (after : List ShellDescriptor)
    (n' : Nat) (o : Option (Outcome (Except ReconcileError α))) : Prop where
  grown : Grown [] 1 1 before n after n'
  single : ∀ identifiers found, o ≠ some (.value (.error (.multipleShells identifiers found)))

/-- A submodel is created only in a shell that was listed without its short id. -/
theorem submodelOf_always (h : IsRegistry S twins) (settings : ReconcileSettings) (row : TwinRow)
    (spec : SubmodelSpec) (shellId : String) (horderly : Orderly (twins world)) :
    (submodelOf settings row spec shellId : Work M _).Always
      (fun world' => Equipped (twins world) n (twins world')) world n := by
  have hsame : ∀ n', n ≤ n' → n' ≤ n + 1 → Grown [] 1 1 (twins world) n (twins world) n' :=
    fun _ => grown_same horderly
  have hstart := hsame n (Nat.le_refl n) (Nat.le_succ n)
  apply h.always_call
  · intro after o hchanged ho
    rw [hchanged.of_submodels]
    exact ⟨hstart, fun _ _ => ho _⟩
  · intro world' a hmeets
    have htwins := (h.changes hmeets).of_submodels
    rw [← htwins] at hsame hstart horderly ⊢
    rcases a with e | found
    · exact Program.always_pure ⟨hstart, nofun⟩ ⟨hstart, by cases e <;> nofun⟩
    · obtain ⟨listed, hlisted, rfl, rfl⟩ := h.lists hmeets
      dsimp only
      cases hfind : listed.submodels.find? (·.idShort = spec.idShort) with
      | some existing => exact Program.always_pure ⟨hstart, nofun⟩ ⟨hstart, nofun⟩
      | none =>
          have hmissing : spec.idShort ∉ listed.submodels.map SubmodelDescriptor.idShort := by
            rw [List.mem_map]
            rintro ⟨submodel, hmem, hshort⟩
            simpa [hshort] using List.find?_eq_none.1 hfind submodel hmem
          have hgrown : ∀ {submodel after}, submodel.idShort = spec.idShort →
              Changed (twins world') (.createSubmodel listed.id submodel) after →
              Grown [] 1 1 (twins world') n after (n + 1) := by
            rintro submodel after hshort (_ | _ | hadd)
            · exact hsame (n + 1) (Nat.le_succ n) (Nat.le_refl _)
            · exact grown_submodel horderly hlisted (hshort ▸ hmissing) hadd (Nat.le_succ n)
                (Nat.le_refl _)
          apply Program.always_serial ⟨hstart, nofun⟩
          apply h.always_call
          · exact fun after o hchanged ho => ⟨hgrown rfl hchanged, fun _ _ => ho _⟩
          · intro world'' a hmeets
            have hgrown := hgrown rfl (h.changes hmeets)
            rcases a with e | created
            · exact Program.always_pure ⟨hgrown, nofun⟩ ⟨hgrown, by cases e <;> nofun⟩
            · exact Program.always_pure ⟨hgrown, nofun⟩ ⟨hgrown, nofun⟩

theorem reconcile_always (h : IsRegistry S twins) (settings : ReconcileSettings) (row : TwinRow)
    (spec : SubmodelSpec) (horderly : Orderly (twins world)) (hfresh : Fresh (twins world) n 3) :
    (reconcile settings row spec : Work M _).Always
      (fun world' => Kept [wanted settings row] 1 3 (twins world) n (twins world')) world n := by
  have hmore : ∀ {after n'}, Grown [wanted settings row] 0 2 (twins world) n after n' →
      Grown [wanted settings row] 1 3 (twins world) n after n' :=
    fun hgrown => hgrown.mono (List.Sublist.refl _) (by omega) (by omega)
  apply (shellOf_always h settings row horderly (hfresh.mono (by omega))).bind
  · exact fun _ _ hkept => ⟨hmore hkept.grown, nofun⟩
  · exact fun _ _ _ hkept => ⟨hmore hkept.grown, nofun⟩
  · intro between m x hkept
    cases x with
    | error e =>
        refine Program.always_pure ⟨hmore hkept.grown, nofun⟩ ⟨hmore hkept.grown, ?_⟩
        rintro identifiers found ⟨⟩
        exact hkept.unchanged identifiers found rfl
    | ok shell =>
        apply (submodelOf_always h settings row spec shell.1 hkept.grown.orderly).bind
        · exact fun _ _ hplaced => ⟨hkept.grown.trans hplaced.grown, nofun⟩
        · exact fun _ _ _ hplaced => ⟨hkept.grown.trans hplaced.grown, nofun⟩
        · intro world' n' y hplaced
          have hgrown := hkept.grown.trans hplaced.grown
          cases y with
          | error e =>
              refine Program.always_pure ⟨hgrown, nofun⟩ ⟨hgrown, ?_⟩
              rintro identifiers found ⟨⟩
              exact absurd rfl (hplaced.single identifiers found)
          | ok submodel => exact Program.always_pure ⟨hgrown, nofun⟩ ⟨hgrown, nofun⟩

end Reconcile

/-! ## Call after call -/

/-- One call: what is to be reconciled, and the steps it has before it is cut off. -/
structure Reconciliation where
  settings : ReconcileSettings
  row : TwinRow
  spec : SubmodelSpec
  fuel : Nat

/-- The identifiers of its row, in the order in which its shell carries them. -/
def Reconciliation.identifiers (call : Reconciliation) : List SpecificAssetId :=
  [⟨"partInstanceId", call.row.partInstanceId⟩,
    ⟨"manufacturerPartId", call.row.manufacturerPartId⟩,
    ⟨"manufacturerId", call.row.manufacturerId.getD call.settings.manufacturerId⟩] ++
    call.row.optionalIdentifier.toList

section Calls

variable {S : Surroundings interface} {twins : S.State → List ShellDescriptor} {M : Memory}
  [DecidableEq M.Key] {s : Session S M}

def Reconciliation.run (s : Session S M) (call : Reconciliation) :
    Session S M × Option (Outcome (Except ReconcileError Reconciled)) :=
  s.run call.fuel (reconcile call.settings call.row call.spec)

def reconciled (s : Session S M) (calls : List Reconciliation) : Session S M :=
  calls.foldl (fun s call => (call.run s).1) s

/-- What one call keeps: shells in order are in order afterwards; it
adds one shell at most, with the identifiers of its row, and one
submodel at most; where it finds several shells, it adds nothing. -/
structure Intact (call : Reconciliation) (before after : List ShellDescriptor)
    (o : Option (Outcome (Except ReconcileError Reconciled))) : Prop where
  orderly : Orderly after
  extended : Extended before after [call.identifiers] 1
  unchanged : ∀ identifiers found,
    o = some (.value (.error (.multipleShells identifiers found))) → after = before

theorem run_kept (h : IsRegistry S twins) (call : Reconciliation)
    (horderly : Orderly (twins s.shared.world))
    (hfresh : Fresh (twins s.shared.world) s.shared.serial 3) :
    Kept [call.identifiers] 1 3 (twins s.shared.world) s.shared.serial
      (twins (call.run s).1.shared.world) (call.run s).1.shared.serial (call.run s).2 :=
  Session.run_always call.fuel
    (reconcile_always h call.settings call.row call.spec horderly hfresh)

theorem reconciled_grown (h : IsRegistry S twins) (calls : List Reconciliation)
    (horderly : Orderly (twins s.shared.world))
    (hfresh : Fresh (twins s.shared.world) s.shared.serial (3 * calls.length)) :
    Grown (calls.map Reconciliation.identifiers) calls.length (3 * calls.length)
      (twins s.shared.world) s.shared.serial
      (twins (reconciled s calls).shared.world) (reconciled s calls).shared.serial := by
  induction calls generalizing s with
  | nil => exact grown_same horderly (Nat.le_refl _) (Nat.le_refl _)
  | cons call calls ih =>
      have hnumbers : 3 * (call :: calls).length = 3 + 3 * calls.length := by
        rw [List.length_cons]
        omega
      rw [hnumbers] at hfresh ⊢
      have hcall := (run_kept h call horderly (hfresh.mono (Nat.le_add_right ..))).grown
      rw [List.length_cons, Nat.add_comm calls.length]
      exact hcall.trans (ih hcall.orderly (hfresh.of_grown hcall))

/-- Reconciling keeps a registry in order, whatever it is done for and whatever fails: no shell
goes or changes but by submodels behind its own, and what is new, single calls have added. -/
theorem reconcile_keeps_integrity (h : IsRegistry S twins) (s : Session S M)
    (calls : List Reconciliation) (horderly : Orderly (twins s.shared.world))
    (hfresh : Fresh (twins s.shared.world) s.shared.serial (3 * calls.length)) :
    Orderly (twins (reconciled s calls).shared.world) ∧
    Extended (twins s.shared.world) (twins (reconciled s calls).shared.world)
      (calls.map Reconciliation.identifiers) calls.length ∧
    ∀ earlier call later, calls = earlier ++ call :: later →
      Intact call (twins (reconciled s earlier).shared.world)
        (twins (call.run (reconciled s earlier)).1.shared.world)
        (call.run (reconciled s earlier)).2 := by
  have hall := reconciled_grown h calls horderly hfresh
  refine ⟨hall.orderly, hall.extended, ?_⟩
  rintro earlier call later rfl
  have hnumbers : 3 * earlier.length + 3 ≤ 3 * (earlier ++ call :: later).length := by
    rw [List.length_append, List.length_cons]
    omega
  have hfresh := hfresh.mono hnumbers
  have hearlier := reconciled_grown h earlier horderly (hfresh.mono (Nat.le_add_right ..))
  have hkept := run_kept h call hearlier.orderly (hfresh.of_grown hearlier)
  exact ⟨hkept.grown.orderly, hkept.grown.extended, hkept.unchanged⟩

end Calls

namespace Bolts

/-- A session with one shell, in which the first submodel that is created is refused. -/
def stocked : Session registrySurroundings memory :=
  .start
    { shells := [⟨"nut", none, none, [⟨"partInstanceId", "P0"⟩],
        [⟨"nut-part", "serialPart", .global "urn:serialPart", []⟩]⟩]
      conflictOnCreate := false
      shellsCreated := 1
      submodelsCreated := 1
      faults := .ofList [⟨"createSubmodel", none, some 1,
        .error (.transport "fake://registry" "refused")⟩] } 0

/-- A bolt, and the same again after the submodel of its shell was refused. -/
def boltTwice : List Reconciliation :=
  [⟨settings, bolt 1 none, part, 9⟩, ⟨settings, bolt 1 none, part, 9⟩]

theorem stocked_keeps_integrity :
    Orderly stocked.shared.world.shells ∧
    Fresh stocked.shared.world.shells stocked.shared.serial (3 * boltTwice.length) ∧
    Orderly (reconciled stocked boltTwice).shared.world.shells ∧
    Extended stocked.shared.world.shells (reconciled stocked boltTwice).shared.world.shells
      (boltTwice.map Reconciliation.identifiers) 2 := by
  have horderly : Orderly stocked.shared.world.shells := ⟨by decide, by decide⟩
  have hfresh : Fresh stocked.shared.world.shells stocked.shared.serial (3 * boltTwice.length) := by
    apply fresh_of_lt (by decide)
    intro shell hshell i _ _
    rw [List.mem_singleton.1 hshell]
    exact fun h => absurd (congrArg (fun id => id.toList.head?) h) (by simp [Uuid.urn])
  obtain ⟨hafter, hextended, -⟩ := reconcile_keeps_integrity registrySurroundings_isRegistry stocked
    boltTwice horderly hfresh
  exact ⟨horderly, hfresh, hafter, hextended⟩

/-- The shell of the first call is there already, and gets its submodel from the second. -/
example : (reconciled stocked boltTwice).shared.world.shells.map
    (fun shell => (shell.id, shell.submodels.map SubmodelDescriptor.idShort)) =
      [("nut", ["serialPart"]), (Uuid.urn 1, ["serialPart"])] := by
  rfl

end Bolts

end Dataspace.Registry
