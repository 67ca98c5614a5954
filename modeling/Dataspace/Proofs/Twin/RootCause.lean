import Dataspace.Proofs.Exchange.RootCause
import Dataspace.Scripted.Registry
import Dataspace.Twin.Reconcile
/-!
What a row that could not be reconciled tells of the registry: whatever a call was answered with
as an error stands in the error of its item.
-/

namespace Dataspace.Registry

variable {M : Memory}

def refusal? : Event interface M → Option RemoteError
  | .did (.call (.lookup _)) (.error e) => some e
  | .did (.call (.createShell _)) (.error e) => some e
  | .did (.call (.submodels _)) (.error e) => some e
  | .did (.call (.createSubmodel _ _)) (.error e) => some e
  | _ => none

def refusals (es : List (Event interface M)) : List RemoteError :=
  es.filterMap refusal?

theorem refusal?_only (e : Event interface M) (h : refusal? e ≠ none) :
    ∃ c a, e = .did (.call c) a := by
  cases e with
  | asked c => exact (h rfl).elim
  | cut interruption leftover => exact (h rfl).elim
  | did act reply =>
      cases act with
      | call c => exact ⟨c, reply, rfl⟩
      | sleep _ | clock | stamp | serial | find _ | install _ | enter _ | write _ _ | leave _
        | guard _ => exact (h rfl).elim

abbrev yielding : Contract interface M :=
  candid refusal? fun _ => False

/-- Nothing was refused, or the last answer was a refusal, and the error says so. -/
def Relays {α : Type} (es : List (Event interface M)) (x : Except ReconcileError α) : Prop :=
  refusals es = [] ∨ ∃ e fault, refusals es = [e] ∧ x = .error fault ∧
    ∀ b, e.body? = some b → Exchange.Mentions b fault.message

/-- The item of a row holds whatever was answered as an error. -/
def Conveys (es : List (Event interface M)) (r : ItemResult) : Prop :=
  ∀ e ∈ refusals es, ∀ b, e.body? = some b →
    r.status = .failed ∧ ∃ text, r.error = some text ∧ Exchange.Mentions b text

section

variable {es : List (Event interface M)}

theorem refusals_after {es' : List (Event interface M)} {fs : List RemoteError}
    (hes : refusals es = []) (h : refusals es' = fs) : refusals (es ++ es') = fs := by
  rw [refusals, List.filterMap_append]
  change refusals es ++ refusals es' = fs
  rw [hes, h, List.nil_append]

theorem mentions_ofRemote {e : RemoteError} {b : String} (h : e.body? = some b) :
    Exchange.Mentions b (ReconcileError.ofRemote e).message := by
  cases e with
  | status code url body => exact Exchange.mentions_message h
  | conflict url body =>
      obtain rfl := Option.some.inj h
      exact ⟨_, "", (String.append_empty).symm⟩
  | transport _ _ | decode _ _ | invalidUrl _ | invalidHeader _ => cases h

theorem relays_refused {α : Type} {es' : List (Event interface M)} {e : RemoteError}
    (hes : refusals es = []) (h : refusals es' = [e]) :
    Relays (es ++ es') (.error (.ofRemote e) : Except ReconcileError α) :=
  .inr ⟨e, _, refusals_after hes h, rfl, fun _ => mentions_ofRemote⟩

theorem Relays.imp {α β : Type} {fault : ReconcileError}
    (h : Relays es (.error fault : Except ReconcileError α)) :
    Relays es (.error fault : Except ReconcileError β) := by
  rcases h with hsmooth | ⟨e, fault', he, hfault, hmentions⟩
  · exact .inl hsmooth
  · obtain rfl := Except.error.inj hfault
    exact .inr ⟨e, _, he, rfl, hmentions⟩

theorem Relays.smooth {α : Type} {x : α} (h : Relays es (.ok x : Except ReconcileError α)) :
    refusals es = [] := by
  rcases h with hsmooth | ⟨e, fault, -, hfault, -⟩
  · exact hsmooth
  · cases hfault

theorem keeps_call_yielding (c : interface.Call) (hes : refusals es = []) :
    (Program.call c : Work M _).Keeps yielding
      (fun es' answer => es' = es ++ Act.events (.call c) answer) es :=
  ⟨.inl hes, fun _ _ => rfl⟩

theorem keeps_makeShell_yielding (row : TwinRow) (b : BusinessIdentifiers)
    (hes : refusals es = []) : (makeShell row b).Keeps yielding Relays es := by
  refine ⟨trivial, fun id _ => ?_⟩
  have hdrawn : refusals (es ++ Act.events .serial id) = [] := refusals_after hes rfl
  cases row.uuid with
  | some uuid =>
      refine ⟨.inl hdrawn, fun answer _ => ?_⟩
      cases answer with
      | error e => exact relays_refused hdrawn rfl
      | ok created => exact .inl (refusals_after hdrawn rfl)
  | none =>
      refine ⟨trivial, fun n _ => ?_⟩
      have hdrawn' : refusals (es ++ Act.events .serial id ++ Act.events .serial n) = [] :=
        refusals_after hdrawn rfl
      refine ⟨.inl hdrawn', fun answer _ => ?_⟩
      cases answer with
      | error e => exact relays_refused hdrawn' rfl
      | ok created => exact .inl (refusals_after hdrawn' rfl)

theorem keeps_shellOf_yielding (settings : ReconcileSettings) (row : TwinRow)
    (hes : refusals es = []) : (shellOf settings row).Keeps yielding Relays es := by
  unfold shellOf
  refine (keeps_call_yielding (Call.lookup _) hes).bind ?_
  rintro _ answer rfl
  match answer with
  | .error e => exact relays_refused hes rfl
  | .ok [] =>
      refine Program.Keeps.bind (keeps_makeShell_yielding row _ (refusals_after hes rfl))
        fun es x hx => ?_
      cases x with
      | error fault => exact hx.imp
      | ok id => exact .inl hx.smooth
  | .ok [id] => exact .inl (refusals_after hes rfl)
  | .ok (first :: second :: rest) => exact .inl (refusals_after hes rfl)

theorem keeps_submodelOf_yielding (settings : ReconcileSettings) (row : TwinRow)
    (spec : SubmodelSpec) (shellId : String) (hes : refusals es = []) :
    (submodelOf settings row spec shellId).Keeps yielding Relays es := by
  unfold submodelOf
  refine (keeps_call_yielding (Call.submodels shellId) hes).bind ?_
  rintro _ answer rfl
  cases answer with
  | error e => exact relays_refused hes rfl
  | ok found =>
      cases hfound : found.find? (·.idShort = spec.idShort) with
      | some existing =>
          simp only [hfound]
          exact .inl (refusals_after hes rfl)
      | none =>
          simp only [hfound]
          refine ⟨trivial, fun n _ => ⟨.inl (refusals_after (refusals_after hes rfl) rfl),
            fun answer _ => ?_⟩⟩
          cases answer with
          | error e => exact relays_refused (refusals_after (refusals_after hes rfl) rfl) rfl
          | ok created =>
              exact .inl (refusals_after (refusals_after (refusals_after hes rfl) rfl) rfl)

theorem keeps_reconcile_yielding (settings : ReconcileSettings) (row : TwinRow)
    (spec : SubmodelSpec) : (reconcile settings row spec).Keeps (yielding (M := M)) Relays [] := by
  unfold reconcile
  refine Program.Keeps.bind (keeps_shellOf_yielding settings row rfl) fun es x hx => ?_
  rcases x with fault | ⟨shellId, shellCreated⟩
  · exact hx.imp
  · refine Program.Keeps.bind (keeps_submodelOf_yielding settings row spec shellId hx.smooth)
      fun es y hy => ?_
    rcases y with fault | ⟨submodelId, created⟩
    · exact hy.imp
    · exact .inl hy.smooth

theorem keeps_reconcileItem_yielding (settings : ReconcileSettings) (row : TwinRow)
    (spec : SubmodelSpec) :
    (reconcileItem settings spec row).Keeps (yielding (M := M)) Conveys [] := by
  unfold reconcileItem
  refine Program.Keeps.bind (keeps_reconcile_yielding settings row spec) fun es x hx => ?_
  cases x with
  | ok r =>
      intro e he
      rw [hx.smooth] at he
      cases he
  | error fault =>
      intro e he b hb
      rcases hx with hsmooth | ⟨e', fault', hrefused, hfault, hmentions⟩
      · rw [hsmooth] at he
        cases he
      · rw [hrefused] at he
        obtain rfl := List.mem_singleton.1 he
        obtain rfl := Except.error.inj hfault
        exact ⟨rfl, _, rfl, (hmentions b hb).within _⟩

end

variable [DecidableEq M.Key]

/-- The items of rows tell of what was refused. -/
theorem reconciliation_conveys (R : Surroundings interface) (settings : ReconcileSettings)
    (spec : SubmodelSpec) (rows : List TwinRow) :
    Exchange.Throughout R (reconciliation (M := M) settings spec rows) Conveys := by
  refine Exchange.throughout_of_candid refusal?_only (fun _ => False.elim) (fun work hwork => ?_)
    fun es r hsmooth e he => ?_
  · obtain ⟨first, -, rfl⟩ := List.mem_map.1 hwork
    exact keeps_reconcileItem_yielding settings first.2 spec
  · rw [refusals, hsmooth] at he
    cases he

end Dataspace.Registry

namespace Dataspace

variable {S : Surroundings Exchange.interface} {M : Memory} [DecidableEq M.Key]

/-- What a remote party says when it refuses a call is not lost.  However the
tasks of a request, of a collection or of a reconciliation follow each other,
an item whose call was refused has failed with an error that holds what was
answered, and so does the record of a negotiation that was refused. -/
theorem root_cause_survives (hstore : ∀ record, ¬ S.Fails (Exchange.Call.save record))
    (R : Surroundings Registry.interface) :
    (∀ settings request processId downloadNow, Exchange.Throughout S
      (Exchange.acquisition settings request processId downloadNow) Exchange.Conveys) ∧
    (∀ assetIds format,
      Exchange.Throughout S (Exchange.collection assetIds format) Exchange.Conveys) ∧
    ∀ settings spec rows, Exchange.Throughout R
      (Registry.reconciliation (M := M) settings spec rows) Registry.Conveys :=
  ⟨Exchange.acquisition_conveys hstore, Exchange.collection_conveys hstore,
    Registry.reconciliation_conveys R⟩

namespace Exchange

/-- What is said by a connector that knows of nothing and wants no negotiation. -/
def spurningAnswer : (c : Call) → Response (Answer c)
  | .entries _ => .reply (Except.ok [])
  | .initiate _ => .reply (Except.error (.status 422 "https://c" "policy mismatch"))
  | .save _ => .reply (Except.ok ())
  | .catalog _ | .negotiationState _ | .address _ | .refresh _ | .fetch _ _ | .partners _
    | .connectors _ | .findTwin _ _ _ | .history _ => .crash none

def spurning : Surroundings interface where
  State := Unit
  receive _ c := ((), spurningAnswer c)
  resume _ c := ((), spurningAnswer c)

theorem spurning_saves (record : NegotiationRecord) : ¬ spurning.Fails (Call.save record) := by
  rintro ⟨world, message, h | h⟩ <;> cases h

def spurnedItems : List (String × ItemResult) :=
  ((⟨Settings.usual, false, .start () 0⟩ : Service spurning).acquire 100
    ⟨"P", "https://p", [.bare "o1" "a1"], [], "json"⟩ true).2

end Exchange

theorem spurning_conveys : (∀ record, ¬ Exchange.spurning.Fails (Exchange.Call.save record)) ∧
    ((∀ settings request processId downloadNow, Exchange.Throughout Exchange.spurning
      (Exchange.acquisition settings request processId downloadNow) Exchange.Conveys) ∧
    (∀ assetIds format, Exchange.Throughout Exchange.spurning
      (Exchange.collection assetIds format) Exchange.Conveys) ∧
    ∀ settings spec rows, Exchange.Throughout Scripted.registrySurroundings
      (Registry.reconciliation (M := Registry.memory) settings spec rows) Registry.Conveys) ∧
    Exchange.spurnedItems.map (fun item => item.2.error) =
      [some ("Negotiation for offer [o1] finished with status Failed:Exception: " ++
        "Request for https://c resulted in HTTP status code 422: policy mismatch")] :=
  ⟨Exchange.spurning_saves,
    root_cause_survives Exchange.spurning_saves Scripted.registrySurroundings,
    by decide +kernel⟩

end Dataspace
