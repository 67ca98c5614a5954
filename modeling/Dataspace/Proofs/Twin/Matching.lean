import Dataspace.Proofs.Http.Listing
import Dataspace.Proofs.Task.Branches
import Dataspace.Proofs.Twin.Reconcile
/-!
Which shells a row is matched with over HTTP.  The ids on the pages of the look-up are counted as
they are listed, those of the page that ends the look-up included.  Main statement:
`multipleShells_iff_listed`, a row fails for several shells just if several ids are listed, or
one of them more than once.
-/

namespace Dataspace

namespace Http.Registry

open Dataspace.Registry

variable {M : Memory}

def choose (row : TwinRow) (b : BusinessIdentifiers) (found : Except RemoteError (List String)) :
    Dataspace.Registry.Work M (Except ReconcileError (String × Bool)) :=
  match found with
  | .error e => pure (.error (.ofRemote e))
  | .ok [] => do
      match ← makeShell row b with
      | .error e => pure (.error e)
      | .ok id => pure (.ok (id, true))
  | .ok [id] => pure (.ok (id, false))
  | .ok ids => pure (.error (.multipleShells (shown b.specificAssetIds) ids))

def furnish (settings : ReconcileSettings) (row : TwinRow) (spec : SubmodelSpec)
    (shell : Except ReconcileError (String × Bool)) :
    Dataspace.Registry.Work M (Except ReconcileError Reconciled) :=
  match shell with
  | .error e => pure (.error e)
  | .ok (shellId, shellCreated) => do
      match ← submodelOf settings row spec shellId with
      | .error e => pure (.error e)
      | .ok (submodelId, created) => pure (.ok ⟨shellId, submodelId, shellCreated, created⟩)

theorem carry_reconcile_eq (c : Client) (fuel : Nat) (settings : ReconcileSettings) (row : TwinRow)
    (spec : SubmodelSpec) :
    (carry c fuel (reconcile settings row spec) : Work M _) =
      listing c .text fuel
          (lookupPath (row.identifiers settings.manufacturerId).specificAssetIds) >>=
        fun found => carry c fuel
          (choose row (row.identifiers settings.manufacturerId) found >>=
            furnish settings row spec) :=
  rfl

/-! ## Results -/

variable {β : Type}

/-- The result is not that there are several shells. -/
def Single (r : Except ReconcileError β) : Prop :=
  ∀ ids found, r ≠ .error (.multipleShells ids found)

theorem single_ofRemote (e : RemoteError) :
    Single (.error (.ofRemote e) : Except ReconcileError β) := by
  rintro ids found h
  cases e <;> cases h

theorem single_ok (x : β) : Single (.ok x : Except ReconcileError β) :=
  fun _ _ h => by cases h

variable {settings : ReconcileSettings} {row : TwinRow} {spec : SubmodelSpec}
  {b : BusinessIdentifiers}

theorem gives_makeShell :
    (makeShell row b : Dataspace.Registry.Work M (Except ReconcileError String)).Gives Single := by
  have hcreate : ∀ shell,
      (createShell shell >>= createdId : Dataspace.Registry.Work M _).Gives Single := by
    refine fun shell => (Program.gives_any (createShell shell)).bind fun answer _ => ?_
    cases answer with
    | error e => exact single_ofRemote e
    | ok created => exact single_ok created.id
  cases huuid : row.uuid with
  | some uuid =>
      rw [makeShell_of_some huuid]
      exact (Program.gives_any Program.serial).bind fun id _ => hcreate _
  | none =>
      rw [makeShell_of_none huuid]
      exact (Program.gives_any Program.serial).bind fun id _ =>
        (Program.gives_any Program.serial).bind fun n _ => hcreate _

theorem gives_submodelOf (shellId : String) :
    (submodelOf settings row spec shellId :
      Dataspace.Registry.Work M (Except ReconcileError (String × Bool))).Gives Single := by
  refine (Program.gives_any (submodels shellId)).bind fun answer _ => ?_
  cases answer with
  | error e => exact single_ofRemote e
  | ok found =>
      cases hexisting : found.find? (·.idShort = spec.idShort) with
      | some existing =>
          simp only [hexisting]
          exact single_ok _
      | none =>
          simp only [hexisting]
          refine (Program.gives_any Program.serial).bind fun n _ => ?_
          refine (Program.gives_any (createSubmodel _ _)).bind fun answer _ => ?_
          cases answer with
          | error e => exact single_ofRemote e
          | ok created => exact single_ok _

/-- A row is given the shell that was chosen for it. -/
theorem gives_furnish (shellId : String) (created : Bool) :
    (furnish settings row spec (.ok (shellId, created)) : Dataspace.Registry.Work M _).Gives
      fun r => Single r ∧ ∀ x, r = .ok x → x.shellId = shellId ∧ x.shellCreated = created := by
  refine (gives_submodelOf shellId).bind fun submodel hsubmodel => ?_
  cases submodel with
  | error e =>
      refine ⟨fun ids found h => ?_, fun x hx => by cases hx⟩
      obtain rfl := Except.error.inj h
      exact hsubmodel ids found rfl
  | ok submodel =>
      refine ⟨single_ok _, fun x hx => ?_⟩
      obtain rfl := Except.ok.inj hx
      exact ⟨rfl, rfl⟩

/-- Why there is no shell is why a row fails. -/
theorem single_error {β' : Type} {e : ReconcileError}
    (h : Single (.error e : Except ReconcileError β)) :
    Single (.error e : Except ReconcileError β') := by
  intro ids found he
  obtain rfl := Except.error.inj he
  exact h ids found rfl

theorem Single.gives_furnish {shell : Except ReconcileError (String × Bool)} (h : Single shell) :
    (furnish settings row spec shell : Dataspace.Registry.Work M _).Gives Single := by
  cases shell with
  | error e => exact single_error h
  | ok shell => exact (Registry.gives_furnish shell.1 shell.2).imp fun _ => And.left

theorem gives_choose {found : Except RemoteError (List String)}
    (h : ∀ ids, found = .ok ids → ids.length < 2) :
    (choose row b found : Dataspace.Registry.Work M _).Gives Single := by
  match found with
  | .error e => exact single_ofRemote e
  | .ok [] =>
      refine gives_makeShell.bind fun shell hshell => ?_
      cases shell with
      | error e => exact single_error hshell
      | ok id => exact single_ok (id, true)
  | .ok [id] => exact single_ok (id, false)
  | .ok (_ :: _ :: _) => exact absurd (h _ rfl) (by simp)

/-! ## Rows -/

section

variable [DecidableEq M.Key] {S : Surroundings interface} {c : Client} {shared s' : Shared S}
  {requests : List Request} {pages : List (List String)} {cause : Option RemoteError} {fuel : Nat}

/-- What a row comes to once its shells are looked up. -/
theorem course_reconcile {l : Lone S M}
    (hread : Reading c .text (lookupPath (row.identifiers settings.manufacturerId).specificAssetIds)
      none l.shared requests pages cause s') (hfuel : requests.length < fuel) :
    ((carry c fuel (reconcile settings row spec) : Work M _).course l).ending =
      ((carry c fuel (choose row (row.identifiers settings.manufacturerId) (listOf pages cause) >>=
        furnish settings row spec) : Work M _).course { l with shared := s' }).ending := by
  obtain ⟨notes, hcourse, -⟩ := hread.leads_listing (M := M) hfuel rfl
  rw [carry_reconcile_eq, Program.course_bind_value hcourse]
  rfl

/-- Where two ids are listed, nothing is asked for but the pages, and the row fails. -/
theorem leads_multipleShells {l : Lone S M} (hfuel : requests.length < fuel)
    (hread : Reading c .text (lookupPath (row.identifiers settings.manufacturerId).specificAssetIds)
      none l.shared requests pages none s') (hmany : 2 ≤ pages.flatten.length) :
    (carry c fuel (reconcile settings row spec) : Work M _).Leads l { l with shared := s' }
      (requests.map Call.exchange) (.error (.multipleShells
        (shown (row.identifiers settings.manufacturerId).specificAssetIds) pages.flatten)) := by
  rw [carry_reconcile_eq]
  refine (hread.leads_listing hfuel rfl).bind_quiet ?_
  rw [listOf]
  rcases hids : pages.flatten with _ | ⟨id, _ | ⟨other, rest⟩⟩
  · simp [hids] at hmany
  · simp [hids] at hmany
  · exact Program.leads_pure ..

/-- Whoever is matched with no more than one id does not fail for several shells. -/
theorem Single.of_course {l : Lone S M} {found : Except RemoteError (List String)}
    (h : ∀ ids, found = .ok ids → ids.length < 2) {r : Except ReconcileError Reconciled}
    (hending : ((carry c fuel (choose row b found >>= furnish settings row spec) :
      Work M _).course l).ending = some (.value r)) : Single r :=
  (((gives_choose h).bind fun _ hshell => hshell.gives_furnish).through _ none).course hending

/-- Whoever is matched with one id takes the shell with this id. -/
theorem taken_of_course {l : Lone S M} {id : String} {r : Reconciled}
    (hending : ((carry c fuel (choose row b (.ok [id]) >>= furnish settings row spec) :
      Work M _).course l).ending = some (.value (.ok r))) :
    r.shellId = id ∧ r.shellCreated = false :=
  (((gives_furnish id false).through _ none).course hending).2 r rfl

theorem two_le_length_iff {ids : List String} :
    2 ≤ ids.length ↔ (∃ id ∈ ids, ∃ other ∈ ids, other ≠ id) ∨ ¬ ids.Nodup := by
  match ids with
  | [] => simp
  | [id] => simp
  | id :: other :: rest =>
      refine iff_of_true (by simp) ?_
      by_cases h : other = id
      · exact .inr fun hnodup => (List.nodup_cons.1 hnodup).1 (h ▸ List.mem_cons_self)
      · exact .inl ⟨id, by simp, other, by simp, h⟩

/-- A row fails for several shells just if all pages of the look-up can be read, and different
ids are listed on them or one id more than once; what it names is all that is listed.  The only
id that is listed, once, is that of the shell it takes. -/
theorem multipleShells_iff_listed (hanswers : S.Answers) (settings : ReconcileSettings)
    (row : TwinRow) (spec : SubmodelSpec)
    (hread : Reading c .text (lookupPath (row.identifiers settings.manufacturerId).specificAssetIds)
      none shared requests pages cause s') (hfuel : requests.length < fuel)
    (locks : KeyLock M.Key M.Value) {limit : Nat} (hlimit : 0 < limit) :
    ∃ enough, ∀ steps, enough ≤ steps →
      let outcomes := ((Machine.start shared locks limit
        [(carry c fuel (reconcile settings row spec) : Work M _)]).settle steps).outcomes
      ((∃ ids found, outcomes = [some (.value (.error (.multipleShells ids found)))]) ↔
        cause = none ∧ ((∃ id ∈ pages.flatten, ∃ other ∈ pages.flatten, other ≠ id) ∨
          ¬ pages.flatten.Nodup)) ∧
      (∀ ids found, outcomes = [some (.value (.error (.multipleShells ids found)))] →
        found = pages.flatten) ∧
      ∀ id r, pages.flatten = [id] → outcomes = [some (.value (.ok r))] →
        r.shellId = id ∧ r.shellCreated = false := by
  obtain ⟨enough, hsettle⟩ := Machine.settle_course hanswers shared locks hlimit
    (carry c fuel (reconcile settings row spec) : Work M _)
  refine ⟨enough, fun steps hsteps => ?_⟩
  have hending := (hsettle steps hsteps).rests.outcomes
  simp only [hending, List.cons.injEq, and_true, ← two_le_length_iff]
  by_cases hmany : cause = none ∧ 2 ≤ pages.flatten.length
  · obtain ⟨rfl, hlength⟩ := hmany
    obtain ⟨notes, hcourse, -⟩ :=
      leads_multipleShells (l := ⟨shared, locks, none⟩) hfuel hread hlength
    rw [hcourse]
    refine ⟨iff_of_true ⟨_, _, rfl⟩ ⟨rfl, hlength⟩, fun ids found h => ?_, fun id r _ h => ?_⟩
    · cases h
      rfl
    · cases h
  · rw [course_reconcile (l := ⟨shared, locks, none⟩) hread hfuel]
    have hfew : ∀ ids, listOf pages cause = .ok ids → ids.length < 2 := by
      intro ids hids
      cases cause with
      | some e => cases hids
      | none =>
          obtain rfl := Except.ok.inj hids
          exact Nat.lt_of_not_le fun h => hmany ⟨rfl, h⟩
    refine ⟨iff_of_false (fun ⟨ids, found, h⟩ => Single.of_course hfew h ids found rfl) hmany,
      fun ids found h => (Single.of_course hfew h ids found rfl).elim, fun id r hid h => ?_⟩
    cases cause with
    | some e => cases h
    | none =>
        rw [listOf, hid] at h
        exact taken_of_course h

end

/-! ## A registry that ignores the cursor -/

/-- Every page is the same: it lists one shell and names a cursor. -/
def echo (_ : Request) : Except Silence Reply :=
  .ok ⟨200, .ok "\x7b\"result\":[\"s1\"],\"paging_metadata\":\x7b\"cursor\":\"a\"\x7d\x7d"⟩

def echoWire : Shared Scripted.wireSurroundings :=
  ⟨⟨echo, .down, []⟩, 0, 0, 0⟩

def echoClient : Client :=
  ⟨"https://p3.example/dtr", [], none⟩

def boltPath : String :=
  lookupPath ((Bolts.bolt 1 none).identifiers Bolts.settings.manufacturerId).specificAssetIds

theorem boltPath_isListPath : IsListPath boltPath :=
  .lookup _

theorem echo_page (r : Request) : pageOf .text r (echo r) = .ok (["s1"], some "a") := by
  let page : Json := .object [("result", .list [.text "s1"]),
    ("paging_metadata", .object [("cursor", .text "a")])]
  have hbrings : Brings (echo r) page :=
    ⟨200, _, page, rfl, by decide, by decide, by decide +kernel, rfl⟩
  exact pageOf_eq_ok_iff.2 ⟨page, hbrings, ⟨_, .wrapped rfl, .cons rfl .nil⟩, rfl⟩

/-- The page is read twice, until its cursor is that of the page before. -/
theorem echo_read : Reading echoClient .text boltPath none echoWire
    [echoClient.getting (echoClient.join boltPath),
      echoClient.getting (echoClient.join (pagePath boltPath (some "a")))]
    [["s1"], ["s1"]] none
    (afterwards (afterwards echoWire (echoClient.getting (echoClient.join boltPath)))
      (echoClient.getting (echoClient.join (pagePath boltPath (some "a"))))) := by
  have hbase : echoClient.url "lookup/shells" = .ok "https://p3.example/dtr/lookup/shells" := by
    decide +kernel
  have hfirst : echoClient.url boltPath = .ok (echoClient.join boltPath) :=
    Client.url_withQuery (IsListPath.lookup []).isBelow (isKept_encodePairs _) hbase
  have hsecond := url_pagePath boltPath_isListPath hfirst (some "a")
  exact .next hfirst rfl (echo_page _) (by decide) (.last hsecond rfl (echo_page _) (.inr rfl))

/-- What is listed on the two pages is counted, and the row fails. -/
theorem echo_counted : 2 < 3 ∧ Reading echoClient .text boltPath none echoWire
    [echoClient.getting (echoClient.join boltPath),
      echoClient.getting (echoClient.join (pagePath boltPath (some "a")))]
    [["s1"], ["s1"]] none
    (afterwards (afterwards echoWire (echoClient.getting (echoClient.join boltPath)))
      (echoClient.getting (echoClient.join (pagePath boltPath (some "a"))))) ∧
    ∃ enough, ∀ steps, enough ≤ steps → ∃ ids found,
      ((Machine.start echoWire .empty 1
        [(carry echoClient 3 (reconcile Bolts.settings (Bolts.bolt 1 none) Bolts.part) :
          Work Dataspace.Registry.memory _)]).settle steps).outcomes =
          [some (.value (.error (.multipleShells ids found)))] := by
  obtain ⟨enough, hcounted⟩ := multipleShells_iff_listed (M := Dataspace.Registry.memory)
    wire_answers Bolts.settings (Bolts.bolt 1 none) Bolts.part echo_read (by decide : 2 < 3) .empty
    Nat.one_pos
  exact ⟨by decide, echo_read, enough, fun steps hsteps =>
    (hcounted steps hsteps).1.2 ⟨rfl, .inr (by decide)⟩⟩

/-- All that is read names one shell, and yet the row fails for several. -/
theorem echo_multipleShells : ∃ requests pages s',
    Reading echoClient .text boltPath none echoWire requests pages none s' ∧
      (∀ id ∈ pages.flatten, id = "s1") ∧
      (carry echoClient 3 (reconcile Bolts.settings (Bolts.bolt 1 none) Bolts.part) :
        Work Dataspace.Registry.memory _).ComesTo echoWire (requests.map Call.exchange)
          (.error (.multipleShells (shown (Bolts.bolt 1 none |>.identifiers
            Bolts.settings.manufacturerId).specificAssetIds) ["s1", "s1"])) :=
  ⟨_, _, _, echo_read, by decide, Program.comesTo_of_course wire_answers fun locks =>
    ⟨_, leads_multipleShells (l := ⟨echoWire, locks, none⟩) (by decide) echo_read (by decide)⟩⟩

end Http.Registry

end Dataspace
