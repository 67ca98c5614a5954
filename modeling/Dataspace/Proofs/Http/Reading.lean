import Dataspace.Http.Registry
import Dataspace.Proofs.Http.Answered
import Dataspace.Proofs.Task.Asking
/-!
How a list is read that comes in pages, from surroundings that may
answer the same request otherwise the next time.  Main statement:
`Reading.leads_listing`, the pages that are read make the list.
-/

namespace Dataspace.Http

variable {M : Memory} [DecidableEq M.Key] {α : Type} {S : Surroundings interface} {l : Lone S M}
  {c : Client}

def afterwards (s : Shared S) (r : Request) : Shared S :=
  (s.answer (Call.exchange r)).1

/-- The surroundings reply to a request, now or later. -/
def Replies (s : Shared S) (r : Request) (reply : Except Silence Reply) : Prop :=
  (s.answer (Call.exchange r)).2 = .ok reply

section Requests

variable {reply : Except Silence Reply}

theorem leads_send {r : Request} (h : Replies l.shared r reply) :
    (send r : Work M _).Leads l { l with shared := afterwards l.shared r } [Call.exchange r]
      (bodyOf r reply) := by
  have hasked : (Program.call (I := interface) (Call.exchange r) : Work M _).Leads l
      { l with shared := afterwards l.shared r } [Call.exchange r] reply := Program.leads_call h
  refine hasked.bind_quiet ?_
  rcases reply with silence | ⟨status, body⟩
  · exact Program.leads_pure ..
  · by_cases hstatus : 200 ≤ status ∧ status < 300
    · rcases body with silence | text <;> simp only [if_pos hstatus, bodyOf] <;>
        exact Program.leads_pure ..
    · rcases body with silence | text <;> simp only [if_neg hstatus, bodyOf] <;>
        exact Program.leads_pure ..

theorem leads_request {path url : String} (hurl : c.url path = .ok url)
    (h : Replies l.shared (c.getting url) reply) :
    (c.request .get path none [] : Work M _).Leads l
      { l with shared := afterwards l.shared (c.getting url) } [Call.exchange (c.getting url)]
      ((bodyOf (c.getting url) reply).map fun text => (url, text)) := by
  have hfields : Client.fields [] = .ok [] := rfl
  have hkept : c.headers.filter (fun h => !([] : List Header).any (·.name = h.name)) ++ [] =
      c.headers := by
    simp
  unfold Client.request
  simp only [hurl, hfields, hkept]
  refine (leads_send h).bind_quiet ?_
  cases bodyOf (c.getting url) reply <;> exact Program.leads_pure ..

end Requests

namespace Registry

variable {codec : Codec α} {path : String}

/-- What a reply says of the page that was asked for: its items, and the cursor that it names. -/
def pageOf (codec : Codec α) (r : Request) (reply : Except Silence Reply) :
    Except RemoteError (List α × Option String) :=
  (bodyOf r reply).bind fun text => (Client.decodeText .free r.url text).bind fun v =>
    ((codec.list.decode (pageParts v).1).mapError fun e => .decode r.url e.message).map fun items =>
      (items, (pageParts v).2)

theorem leads_page (codec : Codec α) {cursor : Option String} {url : String}
    {reply : Except Silence Reply} (hurl : c.url (pagePath path cursor) = .ok url)
    (h : Replies l.shared (c.getting url) reply) :
    (page c codec path cursor : Work M _).Leads l
      { l with shared := afterwards l.shared (c.getting url) } [Call.exchange (c.getting url)]
      (pageOf codec (c.getting url) reply) := by
  have hrequest : (c.requestJson .get (pagePath path cursor) none .free : Work M _).Leads l
      { l with shared := afterwards l.shared (c.getting url) } [Call.exchange (c.getting url)]
      ((bodyOf (c.getting url) reply).bind fun text =>
        (Client.decodeText .free url text).map fun v => (url, v)) := by
    refine (leads_request hurl h).bind_quiet ?_
    cases bodyOf (c.getting url) reply <;> exact Program.leads_pure ..
  refine hrequest.bind_quiet ?_
  have hplace : (c.getting url).url = url := rfl
  rw [pageOf, hplace]
  rcases bodyOf (c.getting url) reply with e | text
  · exact Program.leads_pure ..
  · rcases hv : Client.decodeText .free url text with e | v
    · simp only [Except.bind, Except.map, hv]
      exact Program.leads_pure ..
    · rcases hitems : codec.list.decode (pageParts v).1 with e | items <;>
        simp only [Except.bind, Except.map, Except.mapError, hv, hitems] <;>
        exact Program.leads_pure ..

theorem leads_page_invalid {cursor : Option String} {e : RemoteError}
    (hurl : c.url (pagePath path cursor) = .error e) :
    (page c codec path cursor : Work M _).Leads l l [] (.error e) := by
  unfold page Client.requestJson Client.request
  simp only [hurl]
  exact Program.leads_pure ..

/-- The pages that are read from a cursor on: the requests for them, their items, why the last of
them cannot be had if it cannot, and the surroundings afterwards.  The last page is one without a
cursor, or one that names its own. -/
inductive Reading (c : Client) (codec : Codec α) (path : String) :
    Option String → Shared S → List Request → List (List α) → Option RemoteError → Shared S → Prop
  | invalid {cursor s e} (hurl : c.url (pagePath path cursor) = .error e) :
      Reading c codec path cursor s [] [] (some e) s
  | broken {cursor s url reply e} (hurl : c.url (pagePath path cursor) = .ok url)
      (hreply : Replies s (c.getting url) reply)
      (hpage : pageOf codec (c.getting url) reply = .error e) :
      Reading c codec path cursor s [c.getting url] [] (some e) (afterwards s (c.getting url))
  | last {cursor s url reply items next} (hurl : c.url (pagePath path cursor) = .ok url)
      (hreply : Replies s (c.getting url) reply)
      (hpage : pageOf codec (c.getting url) reply = .ok (items, next))
      (hlast : next = none ∨ next = cursor) :
      Reading c codec path cursor s [c.getting url] [items] none (afterwards s (c.getting url))
  | next {cursor s url reply items next requests pages cause s'}
      (hurl : c.url (pagePath path cursor) = .ok url) (hreply : Replies s (c.getting url) reply)
      (hpage : pageOf codec (c.getting url) reply = .ok (items, some next))
      (hother : cursor ≠ some next)
      (hrest : Reading c codec path (some next) (afterwards s (c.getting url)) requests pages
        cause s') :
      Reading c codec path cursor s (c.getting url :: requests) (items :: pages) cause s'

/-- The list that pages make, if all of them can be had. -/
def listOf (pages : List (List α)) : Option RemoteError → Except RemoteError (List α)
  | none => .ok pages.flatten
  | some e => .error e

theorem map_listOf (items : List α) (pages : List (List α)) (cause : Option RemoteError) :
    (listOf pages cause).map (items ++ ·) = listOf (items :: pages) cause := by
  cases cause <;> rfl

variable {s s' : Shared S} {cursor : Option String} {requests : List Request}
  {pages : List (List α)} {cause : Option RemoteError}

theorem Reading.leads_pages (h : Reading c codec path cursor s requests pages cause s') {fuel : Nat}
    (hfuel : requests.length < fuel) (hl : l.shared = s) :
    (Registry.pages c codec path fuel cursor : Work M _).Leads l { l with shared := s' }
      (requests.map Call.exchange) (some (listOf pages cause)) := by
  induction h generalizing fuel l with
  | invalid hurl =>
      obtain ⟨fuel, rfl⟩ := Nat.exists_eq_succ_of_ne_zero (Nat.ne_of_gt hfuel)
      subst hl
      exact (leads_page_invalid hurl).bind_quiet (Program.leads_pure ..)
  | broken hurl hreply hpage =>
      obtain ⟨fuel, rfl⟩ := Nat.exists_eq_succ_of_ne_zero (Nat.ne_of_gt (Nat.zero_lt_of_lt hfuel))
      subst hl
      have hasked := leads_page codec hurl hreply (M := M)
      rw [hpage] at hasked
      exact hasked.bind_quiet (Program.leads_pure ..)
  | @last cursor s url reply items next hurl hreply hpage hlast =>
      obtain ⟨fuel, rfl⟩ := Nat.exists_eq_succ_of_ne_zero (Nat.ne_of_gt (Nat.zero_lt_of_lt hfuel))
      subst hl
      have hasked := leads_page codec hurl hreply (M := M)
      rw [hpage] at hasked
      have hlist : listOf [items] none = .ok items := by simp [listOf]
      rw [hlist]
      refine hasked.bind_quiet ?_
      cases next with
      | none => exact Program.leads_pure ..
      | some next =>
          have hsame : cursor = some next := by simpa [eq_comm] using hlast
          simp only [if_pos hsame]
          exact Program.leads_pure ..
  | @next cursor s url reply items next requests pages cause s' hurl hreply hpage hother hrest ih =>
      obtain ⟨fuel, rfl⟩ := Nat.exists_eq_succ_of_ne_zero (Nat.ne_of_gt (Nat.zero_lt_of_lt hfuel))
      subst hl
      have hasked := leads_page codec hurl hreply (M := M)
      rw [hpage] at hasked
      have hmore : requests.length < fuel := Nat.lt_of_succ_lt_succ hfuel
      have hrest := ih (l := { l with shared := afterwards l.shared (c.getting url) }) hmore rfl
      refine hasked.bind ?_
      simp only [if_neg hother]
      rw [← map_listOf]
      exact hrest.bind_quiet (Program.leads_pure ..)

/-- The pages that are read make the list, or the reason why the last of them cannot be had is
that why there is no list. -/
theorem Reading.leads_listing (h : Reading c codec path none s requests pages cause s') {fuel : Nat}
    (hfuel : requests.length < fuel) (hl : l.shared = s) :
    (listing c codec fuel path : Work M _).Leads l { l with shared := s' }
      (requests.map Call.exchange) (listOf pages cause) := by
  exact (h.leads_pages hfuel hl).bind_quiet (Program.leads_pure ..)

end Registry

end Dataspace.Http
