import Dataspace.Http.Client
import Dataspace.Proofs.Task.Solo
import Dataspace.Scripted.Wire
/-!
What a program comes to whose requests are answered by one server.  Main statement: on a wire to
that server its run makes these requests, in this order, and has this outcome.
-/

namespace Dataspace

namespace Http

variable {M : Memory} {α β : Type} {server : Request → Except Silence Reply}

/-- The requests that a program makes of a server, and its outcome.  There is none for a program
that does anything else. -/
def answered (server : Request → Except Silence Reply) :
    Work M α → List Request × Option (Outcome α)
  | .done x => ([], some (.value x))
  | .crash message => ([], some (.crashed message))
  | .step (.call (.exchange r)) next =>
      let (rs, outcome) := answered server (next (server r))
      (r :: rs, outcome)
  | .step _ _ => ([], none)

@[simp] theorem answered_pure (x : α) :
    answered server (pure x : Work M α) = ([], some (.value x)) :=
  rfl

/-- A program goes on with its value, after its requests. -/
theorem answered_bind {p : Work M α} {f : α → Work M β} {rs : List Request} {x : α}
    (h : answered server p = (rs, some (.value x))) :
    answered server (p >>= f) =
      (rs ++ (answered server (f x)).1, (answered server (f x)).2) := by
  change answered server (p.bind f) = _
  induction p generalizing rs with
  | done y =>
      obtain ⟨rfl, rfl⟩ : [] = rs ∧ y = x := by simpa [answered] using h
      rfl
  | crash message => simp [answered] at h
  | step act next ih =>
      rcases act with c | _ | _ | _ | _ | _ | _ | _ | _ | _ | _
      · rcases c with r | _ | _
        · rcases hnext : answered server (next (server r)) with ⟨rest, outcome⟩
          obtain ⟨rfl, rfl⟩ : r :: rest = rs ∧ outcome = some (.value x) := by
            simpa [answered, hnext] using h
          simp [Program.bind, answered, ih _ hnext]
        all_goals simp [answered] at h
      all_goals simp [answered] at h

/-- A lone task whose calls the server answers makes its requests and ends. -/
theorem settle_answered [DecidableEq M.Key] {p : Work M α} {rs : List Request}
    {outcome : Outcome α} {s : Shared Scripted.wireSurroundings} {locks : KeyLock M.Key M.Value}
    {turn turns fuel : Nat} (h : answered s.world.server p = (rs, some outcome))
    (hfuel : rs.length < fuel) :
    ((Machine.alone s locks (.ready p) turn turns).settle fuel).outcomes.head?.join = some outcome ∧
      ((Machine.alone s locks (.ready p) turn turns).settle fuel).shared.world =
        { s.world with sent := s.world.sent ++ rs } := by
  obtain ⟨fuel, rfl⟩ : ∃ k, fuel = k + 1 := ⟨fuel - 1, by omega⟩
  rw [Machine.settle_ready]
  induction p generalizing rs s locks turns fuel with
  | done x =>
      obtain ⟨rfl, rfl⟩ : [] = rs ∧ .value x = outcome := by simpa [answered] using h
      rw [Machine.choose_done, Machine.settle_ended, List.append_nil]
      exact ⟨rfl, rfl⟩
  | crash message =>
      obtain ⟨rfl, rfl⟩ : [] = rs ∧ .crashed message = outcome := by simpa [answered] using h
      rw [Machine.choose_crash, Machine.settle_ended, List.append_nil]
      exact ⟨rfl, rfl⟩
  | step act next ih =>
      rcases act with c | _ | _ | _ | _ | _ | _ | _ | _ | _ | _
      · rcases c with r | _ | _
        · rcases hnext : answered s.world.server (next (s.world.server r)) with ⟨rest, o⟩
          obtain ⟨rfl, rfl⟩ : r :: rest = rs ∧ o = some outcome := by
            simpa [answered, hnext] using h
          obtain ⟨fuel, rfl⟩ : ∃ k, fuel = k + 1 := ⟨fuel - 1, by simp at hfuel; omega⟩
          have hreply : (Scripted.wireSurroundings.receive s.world (.exchange r)).2 =
              .reply (s.world.server r) := rfl
          have hworld : (Scripted.wireSurroundings.receive s.world (.exchange r)).1 =
              { s.world with sent := s.world.sent ++ [r] } := rfl
          have hrest := @ih (s.world.server r) rest
            { s with world := { s.world with sent := s.world.sent ++ [r] } } locks (turns + 1) hnext
            fuel (by simpa using hfuel)
          rw [Machine.choose_reply next hreply, Machine.settle_ready, hworld]
          simpa using hrest
        all_goals simp [answered] at h
      all_goals simp [answered] at h

/-- The run of a program on a wire to the server. -/
theorem run_answered [DecidableEq M.Key] {s : Session Scripted.wireSurroundings M} {p : Work M α}
    {rs : List Request} {outcome : Outcome α} {fuel : Nat}
    (h : answered s.shared.world.server p = (rs, some outcome)) (hfuel : rs.length + 2 ≤ fuel) :
    (s.run fuel p).2 = some outcome ∧
      (s.run fuel p).1.shared.world =
        { s.shared.world with sent := s.shared.world.sent ++ rs } := by
  obtain ⟨fuel, rfl⟩ : ∃ k, fuel = k + 1 := ⟨fuel - 1, by omega⟩
  rw [Session.run_eq]
  exact settle_answered h (by omega)

/-! ## Requests of a client -/

def bodyOf (r : Request) : Except Silence Reply → Except RemoteError String
  | .error s => .error (send.lost r s)
  | .ok reply =>
      if 200 ≤ reply.status ∧ reply.status < 300 then reply.body.mapError (send.lost r)
      else .error (.ofStatus reply.status r.url (reply.body.toOption.getD ""))

theorem answered_send (r : Request) :
    answered server (send r : Work M _) = ([r], some (.value (bodyOf r (server r)))) := by
  have hcall : answered server (Program.call (I := interface) (.exchange r) : Work M _) =
      ([r], some (.value (server r))) := rfl
  refine (answered_bind hcall).trans ?_
  rcases server r with silence | ⟨status, body⟩
  · rfl
  · by_cases hstatus : 200 ≤ status ∧ status < 300
    · rcases body with silence | text <;> simp [bodyOf, hstatus] <;> rfl
    · rcases body with silence | text <;> simp [bodyOf, hstatus, Except.toOption]

def Client.getting (c : Client) (url : String) : Request :=
  ⟨.get, url, c.headers, none, c.timeoutMillis⟩

def Client.text (c : Client) (server : Request → Except Silence Reply) (path : String) :
    List Request × Except RemoteError (String × String) :=
  match c.url path with
  | .error e => ([], .error e)
  | .ok url =>
      ([c.getting url], (bodyOf (c.getting url) (server (c.getting url))).map fun text =>
        (url, text))

theorem answered_request (c : Client) (path : String) :
    answered server (c.request .get path none [] : Work M _) =
      ((c.text server path).1, some (.value (c.text server path).2)) := by
  unfold Client.request Client.text
  rcases c.url path with e | url
  · rfl
  · have hfields : Client.fields [] = .ok [] := rfl
    have hkept : c.headers.filter (fun h => !([] : List Header).any (·.name = h.name)) ++ [] =
        c.headers := by
      simp
    simp only [hfields, hkept]
    rw [answered_bind (answered_send _), Client.getting]
    rcases bodyOf _ _ with e | text <;> rfl

theorem answered_requestJson (c : Client) (path : String) (codec : Codec α) :
    answered server (c.requestJson .get path none codec : Work M _) =
      ((c.text server path).1, some (.value ((c.text server path).2.bind fun (url, text) =>
        (Client.decodeText codec url text).map fun x => (url, x)))) := by
  rw [Client.requestJson, answered_bind (answered_request c path)]
  rcases (c.text server path).2 with e | ⟨url, text⟩ <;> simp [Except.bind]

/-- Only a request has an answer, and there is one of them. -/
theorem Client.text_length (c : Client) (server : Request → Except Silence Reply) (path : String) :
    (c.text server path).1.length ≤ 1 ∧
      ∀ x, (c.text server path).2 = .ok x → (c.text server path).1.length = 1 := by
  unfold Client.text
  rcases c.url path with e | url <;> simp

end Http

end Dataspace
