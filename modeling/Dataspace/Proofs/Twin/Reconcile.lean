import Dataspace.Proofs.Twin.Registry
/-!
What reconciling a row comes to on a twin registry in memory, from any registry and with any
faults: the shell is found, or created where there was none; then the submodel is.
-/

namespace Dataspace.Registry

open Scripted (registrySurroundings)
open Scripted.Registry

variable {M : Memory} {α β : Type}

/-- What a program makes of the registry by itself, wherever
it is cut off, whatever numbers are taken for new ids. -/
def Deals (post : Scripted.Registry → Option (Outcome α) → Prop) (p : Work M α)
    (r : Scripted.Registry) : Prop :=
  ∀ s : Shared registrySurroundings, s.world = r → p.Solo (fun s => post s.world) s

section Deals

variable {post post' : Scripted.Registry → Option (Outcome α) → Prop} {p : Work M α}
  {r : Scripted.Registry}

theorem Deals.stopped (h : Deals post p r) : post r none :=
  (h ⟨r, 0, 0, 0⟩ rfl).stopped

theorem Deals.imp (h : Deals post p r) (himp : ∀ r o, post r o → post' r o) : Deals post' p r :=
  fun s hs => (h s hs).imp fun s o => himp s.world o

theorem Deals.bind {mid : Scripted.Registry → Option (Outcome β) → Prop} {q : Work M β}
    {f : β → Work M α} (h : Deals mid q r) (hstopped : ∀ r, mid r none → post r none)
    (hcrashed : ∀ r message, mid r (some (.crashed message)) → post r (some (.crashed message)))
    (hvalue : ∀ r x, mid r (some (.value x)) → Deals post (f x) r) : Deals post (q >>= f) r := by
  intro s hs
  apply (h s hs).bind
  · exact fun s => hstopped s.world
  · exact fun s => hcrashed s.world
  · exact fun s x hx => hvalue s.world x hx s rfl

/-- What every call keeps is kept. -/
theorem Deals.keep (h : Deals post p r) (Inv : Scripted.Registry → Prop)
    (hreceive : ∀ r c, Inv r → Inv (r.receive c).1) :
    Deals (fun after o => post after o ∧ (Inv r → Inv after)) p r := by
  by_cases hinv : Inv r
  · intro s hs
    apply ((h s hs).keep hreceive (hs ▸ hinv)).imp
    exact fun _ _ ⟨hpost, hafter⟩ => ⟨hpost, fun _ => hafter⟩
  · exact h.imp fun _ _ hpost => ⟨hpost, fun h => absurd h hinv⟩

theorem deals_pure {x : α} (hstopped : post r none) (hvalue : post r (some (.value x))) :
    Deals (M := M) post (pure x) r := by
  rintro s rfl
  exact Program.solo_pure hstopped hvalue

/-- Where the value is all that can come out, it does not
matter whether the run is cut off before. -/
theorem deals_pure_of {x : α} (h : ∀ o, (∀ y, o = some y → y = .value x) → post r o) :
    Deals (M := M) post (pure x) r := by
  apply deals_pure
  · apply h
    rintro y ⟨⟩
  · apply h
    rintro y ⟨⟩
    rfl

theorem deals_serial {f : Nat → Work M α} (h : ∀ n, Deals post (f n) r) :
    Deals post (Program.serial >>= f) r := by
  rintro s rfl
  exact ⟨(h 0).stopped, h _ _ rfl⟩

theorem deals_call {c : Call} {f : Answer c → Work M α} (hstopped : post r none)
    (h : ∀ after response, r.Met c after response →
      response.Settles (fun a => Deals post (f a) after)
        fun message => post after (some (.crashed message))) :
    Deals post (Program.call (I := interface) c >>= f) r := by
  rintro s rfl
  refine ⟨hstopped, (h _ _ (receive_met s.world c)).imp ?_ ?_⟩
  · exact fun a ha => ha _ rfl
  · exact fun message hm => hm

end Deals

/-! ## The shell -/

/-- The id of a shell that was created, or why there is none. -/
def createdId : Except RemoteError ShellDescriptor → Work M (Except ReconcileError String)
  | .error e => pure (.error (.ofRemote e))
  | .ok created => pure (.ok created.id)

theorem makeShell_of_some {row : TwinRow} {uuid : String} (h : row.uuid = some uuid)
    (b : BusinessIdentifiers) : (makeShell row b : Work M _) = Program.serial >>= fun id =>
      createShell (newShell row b (Uuid.urn id) uuid) >>= createdId := by
  rw [makeShell, h]
  rfl

theorem makeShell_of_none {row : TwinRow} (h : row.uuid = none) (b : BusinessIdentifiers) :
    (makeShell row b : Work M _) = Program.serial >>= fun id => Program.serial >>= fun n =>
      createShell (newShell row b (Uuid.urn id) (Uuid.urn n)) >>= createdId := by
  rw [makeShell, h]
  rfl

/-- What the making of a shell with these identifiers comes to. -/
inductive Made (ids : List SpecificAssetId) (r : Scripted.Registry) :
    Scripted.Registry → Option (Outcome (Except ReconcileError String)) → Prop where
  | stopped {after : Scripted.Registry} : r.Alike after → Made ids r after none
  | broken {after : Scripted.Registry} {message : Option String} : ¬ r.Reliable → r.Alike after →
      Made ids r after (some (.crashed message))
  | failed {after : Scripted.Registry} (e : ReconcileError) : ¬ r.Reliable → r.Alike after →
      Made ids r after (some (.value (.error e)))
  | created {after : Scripted.Registry} {shell : ShellDescriptor}
      {o : Option (Outcome (Except ReconcileError String))} : shell.specificAssetIds = ids →
      shell.submodels = [] → r.Gains shell after → (∀ x, o = some x → x = .value (.ok shell.id)) →
      Made ids r after o

theorem makeShell_deals (row : TwinRow) (b : BusinessIdentifiers) (r : Scripted.Registry) :
    Deals (M := M) (Made b.specificAssetIds r) (makeShell row b) r := by
  have hcreate : ∀ id asset, Deals (M := M) (Made b.specificAssetIds r)
      (createShell (newShell row b id asset) >>= createdId) r := by
    intro id asset
    apply deals_call (.stopped (.refl r))
    intro after response hmet
    cases hmet with
    | broken hnot halike => exact .broken hnot halike
    | failed e hnot halike => exact deals_pure (.stopped halike) (.failed _ hnot halike)
    | @answered same halike hsame =>
        simp only [answer, Scripted.Registry.createShell, Response.Settles]
        split
        · next hconflict =>
            apply deals_pure (.stopped halike)
            apply Made.failed _ _ halike
            intro hreliable
            exact Bool.noConfusion ((hsame hreliable).accepting.symm.trans hconflict)
        · have hgains : r.Gains (newShell row b id asset) { same with
              shells := same.shells ++ [newShell row b id asset]
              shellsCreated := same.shellsCreated + 1 } := halike.gains ⟨rfl, rfl, rfl⟩
          apply deals_pure_of
          intro o ho
          exact .created rfl rfl hgains ho
  cases huuid : row.uuid with
  | some uuid =>
      rw [makeShell_of_some huuid]
      exact deals_serial fun id => hcreate _ uuid
  | none =>
      rw [makeShell_of_none huuid]
      exact deals_serial fun id => deals_serial fun n => hcreate _ (Uuid.urn n)

/-- What the search for the shell with these identifiers comes to. -/
inductive Sought (ids : List SpecificAssetId) (r : Scripted.Registry) :
    Scripted.Registry → Option (Outcome (Except ReconcileError (String × Bool))) → Prop where
  | stopped {after : Scripted.Registry} : r.Alike after → Sought ids r after none
  | broken {after : Scripted.Registry} {message : Option String} : ¬ r.Reliable → r.Alike after →
      Sought ids r after (some (.crashed message))
  | failed {after : Scripted.Registry} (e : ReconcileError) : ¬ r.Reliable → r.Alike after →
      Sought ids r after (some (.value (.error e)))
  | ambiguous {after : Scripted.Registry} : r.Alike after → 2 ≤ (r.lookup ids).length →
      Sought ids r after (some (.value (.error (.multipleShells (shown ids) (r.lookup ids)))))
  | found {after : Scripted.Registry} {shellId : String} : r.Alike after →
      r.lookup ids = [shellId] → Sought ids r after (some (.value (.ok (shellId, false))))
  | created {after : Scripted.Registry} {shell : ShellDescriptor}
      {o : Option (Outcome (Except ReconcileError (String × Bool)))} : r.lookup ids = [] →
      shell.specificAssetIds = ids → shell.submodels = [] → r.Gains shell after →
      (∀ x, o = some x → x = .value (.ok (shell.id, true))) → Sought ids r after o

/-- The run could have been cut off just there. -/
theorem Sought.halted {ids : List SpecificAssetId} {r after : Scripted.Registry}
    {o : Option (Outcome (Except ReconcileError (String × Bool)))} (h : Sought ids r after o) :
    Sought ids r after none := by
  cases h with
  | stopped halike => exact .stopped halike
  | broken _ halike => exact .stopped halike
  | failed _ _ halike => exact .stopped halike
  | ambiguous halike _ => exact .stopped halike
  | found halike _ => exact .stopped halike
  | created hnone hcarried hbare hgains _ => exact .created hnone hcarried hbare hgains nofun

/-- A shell that was sought with success is the one that is found from then on. -/
theorem Sought.lookup {ids : List SpecificAssetId} {r after : Scripted.Registry} {shellId : String}
    {created : Bool} (h : Sought ids r after (some (.value (.ok (shellId, created))))) :
    after.lookup ids = [shellId] := by
  cases h with
  | found halike hlookup => rw [halike.lookup, hlookup]
  | created hnone hcarried _ hgains hvalue =>
      cases hvalue _ rfl
      rw [hgains.lookup, hnone, hcarried]
      simp

/-- Where no call fails, what is found by the identifiers decides. -/
theorem Sought.decided {ids : List SpecificAssetId} {r after : Scripted.Registry}
    {x : Outcome (Except ReconcileError (String × Bool))} (h : Sought ids r after (some x))
    (hreliable : r.Reliable) :
    (r.lookup ids = [] ∧ ∃ shellId, x = .value (.ok (shellId, true)) ∧
      after.index = r.index ++ [(shellId, ids)]) ∨
    (∃ shellId, r.lookup ids = [shellId] ∧ x = .value (.ok (shellId, false)) ∧
      after.index = r.index) ∨
    (2 ≤ (r.lookup ids).length ∧ r.Alike after ∧
      x = .value (.error (.multipleShells (shown ids) (r.lookup ids)))) := by
  cases h with
  | broken hnot _ => exact absurd hreliable hnot
  | failed _ hnot _ => exact absurd hreliable hnot
  | ambiguous halike hmany => exact .inr (.inr ⟨hmany, halike, rfl⟩)
  | found halike hlookup => exact .inr (.inl ⟨_, hlookup, rfl, halike.index⟩)
  | created hnone hcarried _ hgains hvalue =>
      exact .inl ⟨hnone, _, hvalue x rfl, hcarried ▸ hgains.index⟩

abbrev wanted (settings : ReconcileSettings) (row : TwinRow) : List SpecificAssetId :=
  (row.identifiers settings.manufacturerId).specificAssetIds

theorem shellOf_deals (settings : ReconcileSettings) (row : TwinRow) (r : Scripted.Registry) :
    Deals (M := M) (Sought (wanted settings row) r) (shellOf settings row) r := by
  apply deals_call (.stopped (.refl r))
  intro after response hmet
  cases hmet with
  | broken hnot halike => exact .broken hnot halike
  | failed e hnot halike => exact deals_pure (.stopped halike) (.failed _ hnot halike)
  | @answered same halike hsame =>
      have hlookup := halike.lookup (wanted settings row)
      simp only [answer, Response.Settles]
      generalize hids : same.lookup (wanted settings row) = ids
      rw [hids] at hlookup
      rcases ids with _ | ⟨shellId, _ | ⟨second, rest⟩⟩
      · apply (makeShell_deals row _ same).bind
        · intro after hmade
          cases hmade with
          | stopped h => exact .stopped (halike.trans h)
          | created hcarried hbare hgains _ =>
              refine .created hlookup.symm hcarried hbare (halike.gains hgains) ?_
              rintro x ⟨⟩
        · intro after message hmade
          cases hmade with
          | broken hnot h => exact .broken (mt hsame hnot) (halike.trans h)
          | created _ _ _ hvalue => cases hvalue _ rfl
        · intro after x hmade
          cases hmade with
          | failed e hnot h =>
              exact deals_pure (.stopped (halike.trans h))
                (.failed e (mt hsame hnot) (halike.trans h))
          | created hcarried hbare hgains hvalue =>
              obtain rfl := Outcome.value.inj (hvalue _ rfl)
              apply deals_pure_of
              intro o ho
              exact .created hlookup.symm hcarried hbare (halike.gains hgains) ho
      · exact deals_pure (.stopped halike) (.found halike hlookup.symm)
      · apply deals_pure (.stopped halike)
        rw [hlookup]
        exact .ambiguous halike (by rw [← hlookup]; simp)

/-! ## The submodel -/

/-- What the search for the submodel of a shell comes to. -/
inductive Placed (idShort shellId : String) (r : Scripted.Registry) :
    Scripted.Registry → Option (Outcome (Except ReconcileError (String × Bool))) → Prop where
  | stopped {after : Scripted.Registry} : r.Alike after → Placed idShort shellId r after none
  | broken {after : Scripted.Registry} {message : Option String} : ¬ r.Reliable → r.Alike after →
      Placed idShort shellId r after (some (.crashed message))
  | failed {after : Scripted.Registry} (e : ReconcileError) :
      (r.Reliable → ∀ found, r.submodels shellId ≠ .ok found) → r.Alike after →
      Placed idShort shellId r after (some (.value (.error e)))
  | found {after : Scripted.Registry} {found : List SubmodelDescriptor}
      {submodel : SubmodelDescriptor} : r.Alike after → r.submodels shellId = .ok found →
      found.find? (·.idShort = idShort) = some submodel →
      Placed idShort shellId r after (some (.value (.ok (submodel.id, false))))
  | created {after : Scripted.Registry} {found : List SubmodelDescriptor}
      {submodel : SubmodelDescriptor}
      {o : Option (Outcome (Except ReconcileError (String × Bool)))} :
      r.submodels shellId = .ok found → found.find? (·.idShort = idShort) = none →
      submodel.idShort = idShort → r.Extends shellId submodel after →
      (∀ x, o = some x → x = .value (.ok (submodel.id, true))) →
      Placed idShort shellId r after o

theorem Placed.halted {idShort shellId : String} {r after : Scripted.Registry}
    {o : Option (Outcome (Except ReconcileError (String × Bool)))}
    (h : Placed idShort shellId r after o) : Placed idShort shellId r after none := by
  cases h with
  | stopped halike => exact .stopped halike
  | broken _ halike => exact .stopped halike
  | failed _ _ halike => exact .stopped halike
  | found halike _ _ => exact .stopped halike
  | created hfound hnone hshort hextends _ => exact .created hfound hnone hshort hextends nofun

/-- Where no call fails, there is a submodel in the end, and the shells are as before. -/
theorem Placed.decided {ids : List SpecificAssetId} {idShort shellId : String}
    {r after : Scripted.Registry} {x : Outcome (Except ReconcileError (String × Bool))}
    (h : Placed idShort shellId r after (some x)) (hreliable : r.Reliable)
    (hshell : shellId ∈ r.lookup ids) :
    ∃ submodelId new, x = .value (.ok (submodelId, new)) ∧ after.index = r.index := by
  cases h with
  | broken hnot _ => exact absurd hreliable hnot
  | failed _ hnone _ =>
      obtain ⟨found, hfound⟩ := exists_submodels hshell
      exact absurd hfound (hnone hreliable found)
  | found halike _ _ => exact ⟨_, _, rfl, halike.index⟩
  | created _ _ _ hextends hvalue => exact ⟨_, _, hvalue x rfl, hextends.index⟩

theorem submodelOf_deals (settings : ReconcileSettings) (row : TwinRow) (spec : SubmodelSpec)
    (shellId : String) (r : Scripted.Registry) :
    Deals (M := M) (Placed spec.idShort shellId r) (submodelOf settings row spec shellId) r := by
  apply deals_call (.stopped (.refl r))
  intro after response hmet
  cases hmet with
  | broken hnot halike => exact .broken hnot halike
  | failed e hnot halike =>
      exact deals_pure (.stopped halike) (.failed _ (fun h => absurd h hnot) halike)
  | @answered same halike hsame =>
      have hsubmodels := halike.submodels shellId
      simp only [answer, Response.Settles]
      cases hfound : same.submodels shellId with
      | error e =>
          apply deals_pure (.stopped halike)
          apply Placed.failed _ _ halike
          intro _ found hok
          rw [← hsubmodels, hfound] at hok
          cases hok
      | ok found =>
          rw [hfound] at hsubmodels
          dsimp only
          cases hfind : found.find? (·.idShort = spec.idShort) with
          | some existing =>
              exact deals_pure (.stopped halike) (.found halike hsubmodels.symm hfind)
          | none =>
              apply deals_serial
              intro n
              apply deals_call (.stopped halike)
              intro after response hmet
              cases hmet with
              | broken hnot h => exact .broken (mt hsame hnot) (halike.trans h)
              | failed e hnot h =>
                  exact deals_pure (.stopped (halike.trans h))
                    (.failed _ (fun hr => absurd (hsame hr) hnot) (halike.trans h))
              | @answered again halike' hsame' =>
                  have hagain : again.submodels shellId = .ok found :=
                    (halike'.submodels shellId).trans hfound
                  obtain ⟨hextends, hok⟩ := createSubmodel_extends (newSubmodel settings
                    (row.identifiers settings.manufacturerId).manufacturerId shellId spec
                    (Uuid.urn n)) hagain
                  have hextends := (halike.trans halike').extends hextends
                  simp only [answer, Response.Settles]
                  rw [hok]
                  apply deals_pure_of
                  intro o ho
                  exact .created hsubmodels.symm hfind rfl hextends ho

/-! ## Both -/

/-- What both searches come to, by what the second one does. -/
def joined (shellId : String) (created : Bool) :
    Option (Outcome (Except ReconcileError (String × Bool))) →
      Option (Outcome (Except ReconcileError Reconciled))
  | none => none
  | some (.value (.ok (submodelId, new))) => some (.value (.ok ⟨shellId, submodelId, created, new⟩))
  | some (.value (.error e)) => some (.value (.error e))
  | some (.crashed message) => some (.crashed message)
  | some .dropped => some .dropped

/-- What an attempt to reconcile comes to: the search for the shell ends without one, or it gives
a shell and the search for the submodel follows. -/
inductive Attempted (ids : List SpecificAssetId) (idShort : String) (r : Scripted.Registry) :
    Scripted.Registry → Option (Outcome (Except ReconcileError Reconciled)) → Prop where
  | stopped {after : Scripted.Registry} :
      Sought ids r after none → Attempted ids idShort r after none
  | broken {after : Scripted.Registry} {message : Option String} :
      Sought ids r after (some (.crashed message)) →
      Attempted ids idShort r after (some (.crashed message))
  | failed {after : Scripted.Registry} {e : ReconcileError} :
      Sought ids r after (some (.value (.error e))) →
      Attempted ids idShort r after (some (.value (.error e)))
  | placing {between after : Scripted.Registry} {shellId : String} {created : Bool}
      {o : Option (Outcome (Except ReconcileError (String × Bool)))} :
      Sought ids r between (some (.value (.ok (shellId, created)))) →
      (r.Reliable → between.Reliable) → Placed idShort shellId between after o →
      Attempted ids idShort r after (joined shellId created o)

theorem reconcile_deals (settings : ReconcileSettings) (row : TwinRow) (spec : SubmodelSpec)
    (r : Scripted.Registry) :
    Deals (M := M) (Attempted (wanted settings row) spec.idShort r) (reconcile settings row spec)
      r := by
  apply ((shellOf_deals settings row r).keep Reliable fun _ c h => h.receive c).bind
  · exact fun after h => .stopped h.1
  · exact fun after message h => .broken h.1
  · rintro between x ⟨hsought, hreliable⟩
    match x with
    | .error e => exact deals_pure (.stopped hsought.halted) (.failed hsought)
    | .ok (shellId, created) =>
        apply (submodelOf_deals settings row spec shellId between).bind
        · exact fun after h => .placing hsought hreliable h
        · exact fun after message h => .placing hsought hreliable h
        · intro after x hplaced
          have hhalted := Attempted.placing hsought hreliable hplaced.halted
          match x with
          | .error e => exact deals_pure hhalted (.placing hsought hreliable hplaced)
          | .ok (submodelId, new) => exact deals_pure hhalted (.placing hsought hreliable hplaced)

theorem shellOf_brief (settings : ReconcileSettings) (row : TwinRow) :
    (shellOf settings row : Work M _).Brief 4 := by
  have hmake : ∀ b, (makeShell row b : Work M _).Brief 3 := by
    intro b id
    cases row.uuid with
    | some uuid =>
        intro a
        cases a <;> trivial
    | none =>
        intro n a
        cases a <;> trivial
  intro a
  match a with
  | .error e => trivial
  | .ok [] =>
      apply Program.Brief.bind (hmake _) (k := 0)
      intro x
      cases x <;> trivial
  | .ok [id] => trivial
  | .ok (first :: second :: rest) => trivial

theorem submodelOf_brief (settings : ReconcileSettings) (row : TwinRow) (spec : SubmodelSpec)
    (shellId : String) : (submodelOf settings row spec shellId : Work M _).Brief 3 := by
  intro a
  match a with
  | .error e => trivial
  | .ok found =>
      dsimp only [Program.bind]
      split
      · trivial
      · intro n a
        cases a <;> trivial

/-- Four calls and three new numbers are all that it takes. -/
theorem reconcile_brief (settings : ReconcileSettings) (row : TwinRow) (spec : SubmodelSpec) :
    (reconcile settings row spec : Work M _).Brief 7 := by
  apply (shellOf_brief settings row).bind (k := 3)
  intro x
  match x with
  | .error e => trivial
  | .ok (shellId, created) =>
      apply (submodelOf_brief settings row spec shellId).bind (k := 0)
      intro y
      match y with
      | .error e => trivial
      | .ok (submodelId, new) => trivial

/-- What a complete attempt comes to where no call fails, and what it makes of the shells. -/
inductive Decided (ids : List SpecificAssetId) (r after : Scripted.Registry) :
    Outcome (Except ReconcileError Reconciled) → Prop where
  | created {x : Reconciled} : r.lookup ids = [] → x.shellCreated = true →
      after.index = r.index ++ [(x.shellId, ids)] → Decided ids r after (.value (.ok x))
  | found {x : Reconciled} : r.lookup ids = [x.shellId] → x.shellCreated = false →
      after.index = r.index → Decided ids r after (.value (.ok x))
  | ambiguous : 2 ≤ (r.lookup ids).length → r.Alike after →
      Decided ids r after (.value (.error (.multipleShells (shown ids) (r.lookup ids))))

theorem Attempted.decided {ids : List SpecificAssetId} {idShort : String}
    {r after : Scripted.Registry} {o : Outcome (Except ReconcileError Reconciled)}
    (h : Attempted ids idShort r after (some o)) (hreliable : r.Reliable) :
    Decided ids r after o := by
  generalize ho : some o = result at h
  cases h with
  | stopped _ => cases ho
  | broken hsought =>
      cases ho
      obtain ⟨_, _, hvalue, _⟩ | ⟨_, _, hvalue, _⟩ | ⟨_, _, hvalue⟩ := hsought.decided hreliable <;>
        cases hvalue
  | failed hsought =>
      cases ho
      obtain ⟨_, _, hvalue, _⟩ | ⟨_, _, hvalue, _⟩ | ⟨hmany, halike, hvalue⟩ :=
        hsought.decided hreliable
      · cases hvalue
      · cases hvalue
      · cases hvalue
        exact .ambiguous hmany halike
  | @placing between _ shellId created o hsought hbetween hplaced =>
      match o with
      | none => cases ho
      | some x =>
          have hshell : shellId ∈ between.lookup ids := by simp [hsought.lookup]
          obtain ⟨submodelId, new, rfl, hindex⟩ := hplaced.decided (hbetween hreliable) hshell
          cases ho
          obtain ⟨hnone, _, hvalue, hgains⟩ | ⟨_, hlookup, hvalue, hsame⟩ | ⟨_, _, hvalue⟩ :=
            hsought.decided hreliable
          · cases hvalue
            exact .created hnone rfl (hindex.trans hgains)
          · cases hvalue
            exact .found hlookup rfl (hindex.trans hsame)
          · cases hvalue

/-- An attempt that succeeds has found or created both. -/
theorem Attempted.of_ok {ids : List SpecificAssetId} {idShort : String}
    {r after : Scripted.Registry} {x : Reconciled}
    (h : Attempted ids idShort r after (some (.value (.ok x)))) :
    ∃ between, Sought ids r between (some (.value (.ok (x.shellId, x.shellCreated)))) ∧
      Placed idShort x.shellId between after
        (some (.value (.ok (x.submodelId, x.wasCreated)))) := by
  generalize ho : some (Outcome.value (Except.ok x)) = o at h
  cases h with
  | stopped _ => cases ho
  | broken _ => cases ho
  | failed _ => cases ho
  | @placing between _ shellId created o' hsought _ hplaced =>
      match o' with
      | some (.value (.ok (submodelId, new))) =>
          cases ho
          exact ⟨between, hsought, hplaced⟩
      | none => cases ho
      | some (.value (.error e)) => cases ho
      | some (.crashed message) => cases ho
      | some .dropped => cases ho

/-! ## Rows of bolts -/

namespace Bolts

def settings : ReconcileSettings where
  manufacturerId := "BPNL1"
  endpointBase := "https://edc/"

def bolt (rowNumber : Nat) (extra : Option SpecificAssetId) : TwinRow where
  rowNumber := rowNumber
  uuid := none
  name := "Bolt"
  partInstanceId := "P1"
  manufacturerPartId := "M1"
  manufacturerId := none
  optionalIdentifier := extra

def part : SubmodelSpec where
  idShort := "serialPart"
  semanticId := "urn:serialPart"

def beginning : Session registrySurroundings memory :=
  .start .empty 0

end Bolts

end Dataspace.Registry
