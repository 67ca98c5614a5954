import Dataspace.Http.Registry
import Dataspace.Proofs.Http.Url
import Dataspace.Proofs.Task.Branches
/-!
Which urls a client asks, whatever it is replied: one request goes to the url of its path, and
what reads the reply asks for nothing more.  Main statements:
`Client.asksOnce_request`, `Client.asksOnly_request`.
-/

namespace Dataspace.Http

def Call.GoesTo (url : String) : Call → Prop
  | .exchange r => r.url = url
  | _ => False

variable {M : Memory} {α : Type}

theorem asksOnce_send (r : Request) : (send r : Work M _).AsksOnce (Call.GoesTo r.url) := by
  have hasked : (Program.call (I := interface) (Call.exchange r) : Work M _).AsksOnce
      (Call.GoesTo r.url) := Program.asksOnce_call (I := interface) rfl
  refine hasked.bind fun (reply : Except Silence Reply) => ?_
  rcases reply with silence | ⟨status, body⟩
  · exact Program.asksOnly_pure _
  · by_cases hstatus : 200 ≤ status ∧ status < 300
    · rcases body with silence | text <;> simp only [if_pos hstatus] <;>
        exact Program.asksOnly_pure _
    · rcases body with silence | text <;> simp only [if_neg hstatus] <;>
        exact Program.asksOnly_pure _

namespace Client

variable {c : Client} {path url : String}

theorem asksOnce_request (hurl : c.url path = .ok url) (method : Method) (body : Option Json) :
    (c.request method path body [] : Work M _).AsksOnce (Call.GoesTo url) := by
  have hfields : fields [] = .ok [] := rfl
  unfold request
  simp only [hurl, hfields]
  have hsent : ∀ r : Request, r.url = url → (send r : Work M _).AsksOnce (Call.GoesTo url) := by
    rintro r rfl
    exact asksOnce_send r
  refine Program.AsksOnce.bind (hsent _ rfl) fun answer => ?_
  cases answer <;> exact Program.asksOnly_pure _

theorem asksOnce_requestJson (hurl : c.url path = .ok url) (method : Method) (body : Option Json)
    (codec : Codec α) :
    (c.requestJson method path body codec : Work M _).AsksOnce (Call.GoesTo url) := by
  refine (asksOnce_request hurl method body).bind fun answer => ?_
  rcases answer with e | ⟨url, text⟩ <;> exact Program.asksOnly_pure _

theorem asksOnce_requestOptional (hurl : c.url path = .ok url) (method : Method) (codec : Codec α) :
    (c.requestOptional method path codec : Work M _).AsksOnce (Call.GoesTo url) := by
  refine (asksOnce_requestJson hurl method none codec).bind fun answer => ?_
  rcases answer with e | ⟨url, x⟩
  · dsimp only
    split <;> exact Program.asksOnly_pure _
  · exact Program.asksOnly_pure _

/-- Where there is no url, nothing is asked for. -/
theorem asksOnly_request (c : Client) (method : Method) (path : String) (body : Option Json) :
    (c.request method path body [] : Work M _).AsksOnly (Call.GoesTo (c.join path)) := by
  cases hurl : c.url path with
  | error e =>
      unfold request
      simp only [hurl]
      exact Program.asksOnly_pure _
  | ok url =>
      obtain ⟨rfl, -⟩ := url_eq_ok_iff.1 hurl
      exact (asksOnce_request hurl method body).asksOnly

theorem asksOnly_requestJson (c : Client) (method : Method) (path : String) (body : Option Json)
    (codec : Codec α) :
    (c.requestJson method path body codec : Work M _).AsksOnly (Call.GoesTo (c.join path)) := by
  refine (asksOnly_request c method path body).bind fun answer => ?_
  rcases answer with e | ⟨url, text⟩ <;> exact Program.asksOnly_pure _

end Client

end Dataspace.Http
