import Dataspace.Exchange.Negotiate
import Dataspace.Proofs.Task.Course
/-!
One negotiation by itself: when its state is checked, how
often, and what its record says in the end.
-/

namespace Dataspace.Exchange

structure Check where
  /-- When it was made. -/
  made : Nat
  /-- How long the answer took. -/
  lag : Nat
  answer : Except RemoteError NegotiationState

namespace Check

def state? (c : Check) : Option NegotiationState :=
  c.answer.toOption

/-- No check follows an error or a final state. -/
def decides (c : Check) : Bool :=
  match c.answer with
  | .error _ => true
  | .ok s => s.isTerminal

end Check

/-! ## What is seen of a negotiation -/

/-- When the connector answered that it has begun a negotiation, or that it has not. -/
def initiation? : Note interface memory → Option (Nat × Except RemoteError String)
  | ⟨_, time, .did (.call (.initiate _)) answer⟩ => some (time, answer)
  | _ => none

/-- When the state of a negotiation was asked for, and of which one. -/
def question? : Note interface memory → Option (Nat × String)
  | ⟨_, time, .asked (.negotiationState id)⟩ => some (time, id)
  | _ => none

/-- When the connector answered what the state is. -/
def stateAnswer? : Note interface memory → Option (Nat × Except RemoteError NegotiationState)
  | ⟨_, time, .did (.call (.negotiationState _)) answer⟩ => some (time, answer)
  | _ => none

/-- The checks of a negotiation that was begun at a time, as they are seen. -/
structure Series (interval : Nat) (id : String) (begun : Nat) (notes : List (Note interface memory))
    (checks : List Check) : Prop where
  asked : notes.filterMap question? = checks.map fun c => (c.made, id)
  answered : notes.filterMap stateAnswer? = checks.map fun c => (c.made + c.lag, c.answer)
  /-- One interval after the other, as far as answers are not waited for. -/
  timely : ∀ (i : Nat) c, checks[i]? = some c →
    c.made = begun + (i + 1) * interval + ((checks.take i).map Check.lag).sum

/-- There are no more checks than settled: they go on until one decides, or all are used up. -/
structure Sufficient (polling : Polling) (earlier : List Check) (last : Check) : Prop where
  undecided : ∀ c ∈ earlier, c.decides = false
  within : earlier.length + 1 ≤ max polling.maxChecks 1
  ended : last.decides = true ∨ earlier.length + 1 = max polling.maxChecks 1
  /-- Whoever counts them in 32 bits can do so. -/
  countable : polling.maxChecks < 2 ^ 32 → earlier.length + 1 < 2 ^ 32

/-- What the record says of the checks. -/
structure Concludes (r : NegotiationRecord) (earlier : List Check) (last : Check) : Prop where
  negotiated : r.status = .negotiated ↔ last.answer = .ok .negotiated
  terminated : r.status = .terminated ↔ last.answer = .ok .terminated
  exception : r.status = .failedException ↔ ∃ e, last.answer = .error e
  timeout : r.status = .failedTimeout ↔ ∃ s, last.answer = .ok s ∧ s.isTerminal = false
  remote : r.remoteState =
    (((earlier ++ [last]).filterMap Check.state?).getLast?).map NegotiationState.text
  error : r.error = none ↔ r.status = .negotiated

/-- What a negotiation comes to, as it is seen: it is not begun, or it is watched until its last
check. -/
inductive Upshot (polling : Polling) (notes : List (Note interface memory))
    (r : NegotiationRecord) : Prop where
  | refused (returned : Nat) (e : RemoteError)
      (initiated : notes.filterMap initiation? = [(returned, .error e)])
      (unchecked : notes.filterMap question? = [])
      (status : r.status = .failedException) (remote : r.remoteState = none)
      (error : r.error ≠ none)
  | watched (returned : Nat) (id : String) (earlier : List Check) (last : Check)
      (initiated : notes.filterMap initiation? = [(returned, .ok id)])
      (series : Series polling.intervalMillis id returned notes (earlier ++ [last]))
      (prompt : (∀ c ∈ earlier, c.lag = 0) → ∀ (i : Nat) c, (earlier ++ [last])[i]? = some c →
        c.made = returned + (i + 1) * polling.intervalMillis)
      (sufficient : Sufficient polling earlier last)
      (concludes : Concludes r earlier last)

/-! ## The checks -/

/-- Notes among which there is nothing of a negotiation. -/
structure Besides (notes : List (Note interface memory)) : Prop where
  initiations : notes.filterMap initiation? = []
  questions : notes.filterMap question? = []
  answers : notes.filterMap stateAnswer? = []

section

variable {interval begun : Nat} {id : String} {notes notes' : List (Note interface memory)}
  {checks : List Check}

theorem Series.append_besides (h : Series interval id begun notes checks) (h' : Besides notes') :
    Series interval id begun (notes ++ notes') checks where
  asked := by rw [List.filterMap_append, h.asked, h'.questions, List.append_nil]
  answered := by rw [List.filterMap_append, h.answered, h'.answers, List.append_nil]
  timely := h.timely

theorem Series.behind (h : Series interval id begun notes checks)
    (hquestions : notes'.filterMap question? = []) (hanswers : notes'.filterMap stateAnswer? = []) :
    Series interval id begun (notes' ++ notes) checks where
  asked := by rw [List.filterMap_append, h.asked, hquestions, List.nil_append]
  answered := by rw [List.filterMap_append, h.answered, hanswers, List.nil_append]
  timely := h.timely

theorem series_nil (h : Besides notes) : Series interval id begun notes [] where
  asked := h.questions
  answered := h.answers
  timely := fun i c hc => by cases hc

/-- If answers are not waited for, checks are made at multiples of the interval. -/
theorem Series.made_of_prompt {earlier : List Check} {last : Check}
    (h : Series interval id begun notes (earlier ++ [last])) (hprompt : ∀ c ∈ earlier, c.lag = 0)
    (i : Nat) (c : Check) (hc : (earlier ++ [last])[i]? = some c) :
    c.made = begun + (i + 1) * interval := by
  have hi : i < (earlier ++ [last]).length := (List.getElem?_eq_some_iff.1 hc).1
  rw [List.length_append, List.length_singleton] at hi
  have hlags : (((earlier ++ [last]).take i).map Check.lag).sum = 0 := by
    rw [List.take_append_of_le_length (Nat.le_of_lt_succ hi), List.sum_eq_zero_iff_forall_eq_nat]
    exact List.forall_mem_map.2 fun d hd => hprompt d (List.mem_of_mem_take hd)
  rw [h.timely i c hc, hlags, Nat.add_zero]

/-- A check comes first, and the others one interval after its answer. -/
theorem Series.cons {c : Check} (hmade : c.made = begun + interval)
    (hasked : notes.filterMap question? = [(c.made, id)])
    (hanswered : notes.filterMap stateAnswer? = [(c.made + c.lag, c.answer)])
    (h : Series interval id (c.made + c.lag) notes' checks) :
    Series interval id begun (notes ++ notes') (c :: checks) where
  asked := by
    rw [List.filterMap_append, hasked, h.asked]
    rfl
  answered := by
    rw [List.filterMap_append, hanswered, h.answered]
    rfl
  timely := by
    intro i c' hc'
    cases i with
    | zero =>
        obtain rfl := Option.some.inj hc'
        simp [hmade]
    | succ i =>
        have hlater := h.timely i c' hc'
        rw [hlater, hmade, List.take_succ_cons, List.map_cons, List.sum_cons, Nat.succ_mul (i + 1)]
        omega

end

/-- How the checks ended, of which so many had been made before. -/
def Check.ended (checks : Nat) (c : Check) : Checked :=
  match c.answer with
  | .error e => .failed e
  | .ok s => .state (checks + 1) s

/-- An attempt that knows of further checks. -/
def Attempt.checked (a : Attempt) (checks : List Check) : Attempt :=
  { a with lastState := ((checks.filterMap Check.state?).getLast?).or a.lastState }

theorem Attempt.checked_checked (a : Attempt) (first second : List Check) :
    (a.checked first).checked second = a.checked (first ++ second) := by
  simp only [checked, List.filterMap_append, List.getLast?_append, Option.or_assoc]

variable {S : Surroundings interface}

def afterCheck (interval : Nat) (id : String) (made more : Nat) (a : Attempt) :
    Except RemoteError NegotiationState → Work (Attempt × Checked)
  | .error e => pure (a, .failed e)
  | .ok s => do
      let a := { a with lastState := some s }
      keep a
      if s.isTerminal then pure (a, .state (made + 1) s)
      else match more with
        | 0 => pure (a, .state (made + 1) s)
        | more + 1 => checkState interval id (made + 1) more a

/-- The course of one check and of what follows. -/
theorem course_check (hanswers : S.Answers) {id : String}
    (hcheck : ¬ S.Fails (Call.negotiationState id)) (interval made more : Nat) (a : Attempt)
    (l : Lone S memory) : ∃ (c : Check) (l' : Lone S memory) (notes : List (Note interface memory)),
      (checkState interval id made more a).course l =
        ((afterCheck interval id made more a c.answer).course l').behind notes ∧
      c.made = l.shared.clock + interval ∧ l'.shared.clock = c.made + c.lag ∧
      notes.filterMap initiation? = [] ∧ notes.filterMap question? = [(c.made, id)] ∧
      notes.filterMap stateAnswer? = [(c.made + c.lag, c.answer)] := by
  obtain ⟨answer, lag, l', hclock, hcourse⟩ :=
    Program.exists_course_call hanswers hcheck (l.later interval)
  refine ⟨⟨l.shared.clock + interval, lag, answer⟩, l',
    [l.note (.did (.sleep interval) ()),
      ⟨some 0, l.shared.clock + interval, .asked (Call.negotiationState id)⟩,
      ⟨some 0, l.shared.clock + interval + lag, .did (.call (Call.negotiationState id)) answer⟩],
    ?_, rfl, hclock, rfl, rfl, rfl⟩
  rw [checkState.eq_def]
  exact congrArg (Course.behind [l.note (.did (.sleep interval) ())])
    (hcourse (afterCheck interval id made more a))

/-- What is seen when an attempt is kept. -/
def keeping (a : Attempt) (l : Lone S memory) : List (Note interface memory) :=
  [l.note (.did (.guard (some a.aftermath)) ())]

theorem besides_keeping (a : Attempt) (l : Lone S memory) : Besides (keeping a l) :=
  ⟨rfl, rfl, rfl⟩

variable {interval made more : Nat} {id : String} {a : Attempt} {c : Check}

/-- After the last check nothing is asked. -/
theorem course_afterCheck_last (hlast : c.decides = true ∨ more = 0) (l : Lone S memory) :
    ∃ after notes, (afterCheck interval id made more a c.answer).course l =
        ⟨after, notes, some (.value (a.checked [c],
          c.ended made))⟩ ∧ Besides notes := by
  obtain ⟨_, _, answer⟩ := c
  cases answer with
  | error e => exact ⟨_, _, rfl, rfl, rfl, rfl⟩
  | ok s =>
      let a' : Attempt := { a with lastState := some s }
      refine ⟨{ l with aftermath := some a'.aftermath }, keeping a' l, ?_, besides_keeping a' l⟩
      have hafter : afterCheck interval id made more a (.ok s) =
          keep a' >>= fun _ => pure (a', .state (made + 1) s) := by
        rw [afterCheck.eq_def]
        rcases hlast with hterminal | rfl
        · exact congrArg (keep a' >>= ·) (funext fun _ => if_pos hterminal)
        · exact congrArg (keep a' >>= ·) (funext fun _ => ite_self _)
      rw [hafter]
      rfl

/-- After a check that decides nothing there is another one. -/
theorem course_afterCheck_more (hopen : c.decides = false) (l : Lone S memory) :
    ∃ (l' : Lone S memory) (notes : List (Note interface memory)),
      (afterCheck interval id made (more + 1) a c.answer).course l =
        ((checkState interval id (made + 1) more (a.checked [c])).course l').behind notes ∧
      l'.shared.clock = l.shared.clock ∧ Besides notes := by
  obtain ⟨_, _, answer⟩ := c
  cases answer with
  | error e => cases hopen
  | ok s =>
      let a' : Attempt := { a with lastState := some s }
      refine ⟨{ l with aftermath := some a'.aftermath }, keeping a' l, ?_, rfl,
        besides_keeping a' l⟩
      have hs : ¬ s.isTerminal = true := by simpa [Check.decides] using hopen
      have hafter : afterCheck interval id made (more + 1) a (.ok s) =
          keep a' >>= fun _ => checkState interval id (made + 1) more a' := by
        rw [afterCheck.eq_def]
        exact congrArg (keep a' >>= ·) (funext fun _ => if_neg hs)
      rw [hafter]
      rfl

/-- Checks went on until one decided or none was left, with so many left after the first. -/
structure Polled (interval : Nat) (id : String) (begun more : Nat)
    (notes : List (Note interface memory)) (earlier : List Check) (last : Check) : Prop where
  initiations : notes.filterMap initiation? = []
  series : Series interval id begun notes (earlier ++ [last])
  undecided : ∀ c ∈ earlier, c.decides = false
  within : earlier.length ≤ more
  ended : last.decides = true ∨ earlier.length = more

section

variable {begun : Nat} {notes notes' rest : List (Note interface memory)}
  (hmade : c.made = begun + interval) (hinitiation : notes.filterMap initiation? = [])
  (hquestion : notes.filterMap question? = [(c.made, id)])
  (hanswer : notes.filterMap stateAnswer? = [(c.made + c.lag, c.answer)])
  (hbesides : Besides notes')

include hmade hinitiation hquestion hanswer hbesides

/-- No check follows one that decides, and none the last one. -/
theorem polled_last (hlast : c.decides = true ∨ more = 0) :
    Polled interval id begun more (notes ++ notes') [] c where
  initiations := by
    rw [List.filterMap_append, hinitiation, hbesides.initiations]
    rfl
  series := .cons hmade hquestion hanswer (series_nil hbesides)
  undecided _ h := (List.not_mem_nil h).elim
  within := Nat.zero_le more
  ended := hlast.imp_right Eq.symm

/-- Further checks follow one that decides nothing. -/
theorem Polled.cons {earlier : List Check} {last : Check} (hopen : c.decides = false)
    (h : Polled interval id (c.made + c.lag) more rest earlier last) :
    Polled interval id begun (more + 1) (notes ++ (notes' ++ rest)) (c :: earlier) last where
  initiations := by
    rw [List.filterMap_append, List.filterMap_append, hinitiation, hbesides.initiations,
      h.initiations]
    rfl
  series := .cons hmade hquestion hanswer (h.series.behind hbesides.questions hbesides.answers)
  undecided := List.forall_mem_cons.2 ⟨hopen, h.undecided⟩
  within := Nat.succ_le_succ h.within
  ended := h.ended.imp_right fun h => congrArg Nat.succ h

end

/-- The course of the checks. -/
theorem course_checkState (hanswers : S.Answers) (hcheck : ¬ S.Fails (Call.negotiationState id))
    (interval made more : Nat) (a : Attempt) (l : Lone S memory) : ∃ after notes earlier last,
      (checkState interval id made more a).course l =
        ⟨after, notes, some (.value (a.checked (earlier ++ [last]),
          last.ended (made + earlier.length)))⟩ ∧
      Polled interval id l.shared.clock more notes earlier last := by
  induction more generalizing made a l with
  | zero =>
      obtain ⟨c, l₁, notes, hcourse, hmade, -, hinitiation, hquestion, hanswer⟩ :=
        course_check hanswers hcheck interval made 0 a l
      obtain ⟨after, notes', hafter, hbesides⟩ := course_afterCheck_last (.inr rfl) l₁
      rw [hcourse, hafter]
      exact ⟨after, _, [], c, rfl,
        polled_last hmade hinitiation hquestion hanswer hbesides (.inr rfl)⟩
  | succ more ih =>
      obtain ⟨c, l₁, notes, hcourse, hmade, hclock, hinitiation, hquestion, hanswer⟩ :=
        course_check hanswers hcheck interval made (more + 1) a l
      rw [hcourse]
      cases hc : c.decides with
      | true =>
          obtain ⟨after, notes', hafter, hbesides⟩ := course_afterCheck_last (.inl hc) l₁
          rw [hafter]
          exact ⟨after, _, [], c, rfl,
            polled_last hmade hinitiation hquestion hanswer hbesides (.inl hc)⟩
      | false =>
          obtain ⟨l₂, notes', hafter, hclock', hbesides⟩ := course_afterCheck_more hc l₁
          obtain ⟨after, rest, earlier, last, hrest, hpolled⟩ := ih (made + 1) (a.checked [c]) l₂
          rw [hafter, hrest]
          rw [hclock', hclock] at hpolled
          refine ⟨after, notes ++ (notes' ++ rest), c :: earlier, last, ?_,
            hpolled.cons hmade hinitiation hquestion hanswer hbesides hc⟩
          rw [Attempt.checked_checked, Nat.add_assoc, Nat.add_comm 1]
          rfl

/-! ## The whole negotiation -/

inductive Attempted (polling : Polling) (a : Attempt) (notes : List (Note interface memory)) :
    Attempt × Checked → Prop where
  | refused (returned : Nat) (e : RemoteError)
      (initiated : notes.filterMap initiation? = [(returned, .error e)])
      (unchecked : notes.filterMap question? = []) : Attempted polling a notes (a, .failed e)
  | watched (returned : Nat) (id : String) (earlier : List Check) (last : Check)
      (initiated : notes.filterMap initiation? = [(returned, .ok id)])
      (series : Series polling.intervalMillis id returned notes (earlier ++ [last]))
      (sufficient : Sufficient polling earlier last) :
      Attempted polling a notes
        (({ a with negotiationId := some id } : Attempt).checked (earlier ++ [last]),
          last.ended earlier.length)

theorem Polled.sufficient {polling : Polling} {id : String} {begun : Nat}
    {notes : List (Note interface memory)} {earlier : List Check} {last : Check}
    (h : Polled polling.intervalMillis id begun (polling.maxChecks - 1) notes earlier last) :
    Sufficient polling earlier last := by
  have hwithin := h.within
  exact
    { undecided := h.undecided
      within := by omega
      ended := h.ended.imp_right fun h => by omega
      countable := by omega }

/-- The course of an attempt. -/
theorem course_drive (hanswers : S.Answers) {request : NegotiationRequest}
    (hinitiate : ¬ S.Fails (Call.initiate request))
    (hcheck : ∀ id, ¬ S.Fails (Call.negotiationState id)) (polling : Polling) (a : Attempt)
    (l : Lone S memory) : ∃ after notes x,
      (drive polling request a).course l = ⟨after, notes, some (.value x)⟩ ∧
        Attempted polling a notes x := by
  obtain ⟨answer, lag, l₁, hclock, hcourse⟩ := Program.exists_course_call hanswers hinitiate l
  cases answer with
  | error e =>
      refine ⟨l₁, _, (a, .failed e), hcourse _, .refused (l.shared.clock + lag) e rfl rfl⟩
  | ok id =>
      let a' : Attempt := { a with negotiationId := some id }
      let l₂ : Lone S memory := { l₁ with aftermath := some a'.aftermath }
      obtain ⟨after, notes, earlier, last, hchecks, hpolled⟩ :=
        course_checkState hanswers (hcheck id) polling.intervalMillis 0 (polling.maxChecks - 1)
          a' l₂
      have hkept : Course.behind (keeping a' l₁)
          ((checkState polling.intervalMillis id 0 (polling.maxChecks - 1) a').course l₂) =
            ⟨after, keeping a' l₁ ++ notes, _⟩ :=
        congrArg _ hchecks
      rw [Nat.zero_add] at hkept
      refine ⟨after, _, _, (hcourse _).trans (congrArg _ hkept),
        .watched (l.shared.clock + lag) id earlier last ?_ ?_ hpolled.sufficient⟩
      · rw [List.filterMap_append, List.filterMap_append, (besides_keeping a' l₁).initiations,
          hpolled.initiations]
        rfl
      · have hseries := hpolled.series
        rw [show l₂.shared.clock = l.shared.clock + lag from hclock] at hseries
        exact (hseries.behind rfl rfl).behind rfl rfl

/-- What the record says of an attempt that was watched. -/
theorem concludes_record (a : Attempt) (hnew : a.lastState = none) (earlier : List Check)
    (last : Check) (moment : Moment) :
    Concludes ((a.checked (earlier ++ [last])).record (last.ended earlier.length).outcome.1
      (last.ended earlier.length).outcome.2 moment) earlier last := by
  have hremote : ((a.checked (earlier ++ [last])).record (last.ended earlier.length).outcome.1
      (last.ended earlier.length).outcome.2 moment).remoteState =
        (((earlier ++ [last]).filterMap Check.state?).getLast?).map NegotiationState.text := by
    change (Option.or _ a.lastState).map NegotiationState.text = _
    rw [hnew, Option.or_none]
  obtain ⟨made, lag, answer⟩ := last
  cases answer with
  | error e =>
      refine ⟨?_, ?_, ?_, ?_, hremote, ?_⟩ <;>
        simp [Attempt.record, Check.ended, Checked.outcome]
  | ok s =>
      cases s <;>
        refine ⟨?_, ?_, ?_, ?_, hremote, ?_⟩ <;>
        simp [Attempt.record, Check.ended, Checked.outcome, NegotiationStatus.ofLastState,
          NegotiationState.isTerminal]

/-- The record of an attempt whose checks ended so, once it has been handed to the store. -/
def conclude (x : Attempt × Checked) : Work NegotiationRecord := do
  let moment ← Program.stamp
  let record := x.1.record x.2.outcome.1 x.2.outcome.2 moment
  Program.guard none
  let _ ← save record
  pure record

theorem negotiate_eq (polling : Polling) (processId : String) (request : NegotiationRequest) :
    negotiate polling processId request = (do
      let n ← Program.serial
      let a : Attempt := ⟨Uuid.text n, processId, request.connectorId, request.offerId, none, none⟩
      keep a
      let x ← drive polling request a
      conclude x) :=
  rfl

theorem course_conclude (hanswers : S.Answers) (hsave : ∀ record, ¬ S.Fails (Call.save record))
    (x : Attempt × Checked) (l : Lone S memory) : ∃ after notes moment,
      (conclude x).course l =
        ⟨after, notes, some (.value (x.1.record x.2.outcome.1 x.2.outcome.2 moment))⟩ ∧
      Besides notes := by
  let moment := Moment.ofNanos (l.shared.stamped + 1)
  let record := x.1.record x.2.outcome.1 x.2.outcome.2 moment
  let l₁ : Lone S memory :=
    { l with shared := { l.shared with stamped := l.shared.stamped + 1 }, aftermath := none }
  obtain ⟨answer, lag, l₂, -, hcourse⟩ :=
    Program.exists_course_call hanswers (hsave record) l₁
  exact ⟨l₂, l.note (.did .stamp moment) :: l.note (.did (.guard none) ()) :: [_, _], moment,
    congrArg (Course.behind [_]) (congrArg (Course.behind [_]) (hcourse fun _ => pure record)),
    rfl, rfl, rfl⟩

/-- What became of an attempt is what its record says. -/
theorem Attempted.upshot {polling : Polling} {a : Attempt} (hnew : a.lastState = none)
    {notes before after : List (Note interface memory)} {x : Attempt × Checked}
    (h : Attempted polling a notes x) (hbefore : Besides before) (hafter : Besides after)
    (moment : Moment) :
    Upshot polling (before ++ (notes ++ after))
      (x.1.record x.2.outcome.1 x.2.outcome.2 moment) := by
  have hinitiations : (before ++ (notes ++ after)).filterMap initiation? =
      notes.filterMap initiation? := by
    simp only [List.filterMap_append, hbefore.initiations, hafter.initiations, List.nil_append,
      List.append_nil]
  have hquestions : (before ++ (notes ++ after)).filterMap question? =
      notes.filterMap question? := by
    simp only [List.filterMap_append, hbefore.questions, hafter.questions, List.nil_append,
      List.append_nil]
  cases h with
  | refused returned e hinitiated hunchecked =>
      refine .refused returned e (hinitiations.trans hinitiated) (hquestions.trans hunchecked) rfl
        ?_ (Option.some_ne_none _)
      exact congrArg (Option.map NegotiationState.text) hnew
  | watched returned id earlier last hinitiated hseries hsufficient =>
      exact .watched returned id earlier last (hinitiations.trans hinitiated)
        ((hseries.append_besides hafter).behind hbefore.questions hbefore.answers)
        hseries.made_of_prompt hsufficient
        (concludes_record { a with negotiationId := some id } hnew earlier last moment)

/-- The course of a negotiation. -/
theorem course_negotiate (hanswers : S.Answers) {request : NegotiationRequest}
    (hinitiate : ¬ S.Fails (Call.initiate request))
    (hcheck : ∀ id, ¬ S.Fails (Call.negotiationState id))
    (hsave : ∀ record, ¬ S.Fails (Call.save record)) (polling : Polling) (processId : String)
    (l : Lone S memory) : ∃ after notes r,
      (negotiate polling processId request).course l = ⟨after, notes, some (.value r)⟩ ∧
        Upshot polling notes r := by
  let n := l.shared.serial + 1
  let a : Attempt := ⟨Uuid.text n, processId, request.connectorId, request.offerId, none, none⟩
  let l₁ : Lone S memory := { l with shared := { l.shared with serial := n } }
  obtain ⟨l₂, notes, x, hdrive, hattempted⟩ := course_drive hanswers hinitiate hcheck polling a
    { l₁ with aftermath := some a.aftermath }
  obtain ⟨l₃, notes', moment, hconclude, hbesides⟩ := course_conclude hanswers hsave x l₂
  have hrest : (drive polling request a >>= conclude).course
      { l₁ with aftermath := some a.aftermath } =
        ⟨l₃, notes ++ notes', some (.value (x.1.record x.2.outcome.1 x.2.outcome.2 moment))⟩ := by
    rw [Program.course_bind_value hdrive, hconclude]
    rfl
  refine ⟨l₃, (l.note (.did .serial n) :: keeping a l₁) ++ (notes ++ notes'), _, ?_,
    hattempted.upshot rfl ⟨rfl, rfl, rfl⟩ hbesides moment⟩
  rw [negotiate_eq]
  exact congrArg (Course.behind [l.note (.did .serial n)])
    (congrArg (Course.behind (keeping a l₁)) hrest)

/-- One negotiation by itself, among any surroundings that do not crash: if it is refused, its
state is never checked.  Else the checks follow the answer one interval after the other until one
of them decides or all are used up, and the record tells how the last one ended. -/
theorem negotiate_comes_to (hanswers : S.Answers) {request : NegotiationRequest}
    (hinitiate : ¬ S.Fails (Call.initiate request))
    (hcheck : ∀ id, ¬ S.Fails (Call.negotiationState id))
    (hsave : ∀ record, ¬ S.Fails (Call.save record)) (polling : Polling) (processId : String)
    (shared : Shared S) (locks : KeyLock memory.Key memory.Value) {limit : Nat}
    (hlimit : 0 < limit) :
    ∃ r enough, ∀ fuel, enough ≤ fuel →
      let m := Machine.start shared locks limit [negotiate polling processId request]
      (m.settle fuel).outcomes = [some (.value r)] ∧
        Upshot polling (m.trace (m.itinerary fuel)) r := by
  obtain ⟨after, notes, r, hcourse, hupshot⟩ := course_negotiate hanswers hinitiate hcheck hsave
    polling processId ⟨shared, locks, none⟩
  obtain ⟨enough, hsettle⟩ := Machine.settle_course hanswers shared locks hlimit
    (negotiate polling processId request)
  refine ⟨r, enough, fun fuel hfuel => ?_⟩
  obtain ⟨hrests, -, hvalue⟩ := hsettle fuel hfuel
  rw [hcourse] at hrests hvalue
  obtain ⟨hnotes, -⟩ := hvalue r rfl
  exact ⟨hrests.outcomes, hnotes ▸ hupshot⟩

/-! ## A connector that takes its time -/

/-- A connector that begins a negotiation after seven milliseconds, and agrees at the second check.
Its state is how often it was asked. -/
def hesitant : Surroundings interface where
  State := Nat
  receive
    | checks, .initiate _ => (checks, .later 7)
    | checks, .negotiationState _ =>
        (checks + 1, .reply (.ok (if checks = 0 then .requested else .negotiated)))
    | checks, .save _ => (checks, .reply (.ok ()))
    | checks, .catalog _ | checks, .entries _ | checks, .address _ | checks, .refresh _
    | checks, .fetch _ _ | checks, .partners _ | checks, .connectors _ | checks, .findTwin _ _ _
    | checks, .history _ => (checks, .crash none)
  resume
    | checks, .initiate _ => (checks, .reply (.ok "n1"))
    | checks, .negotiationState _ => (checks, .reply (.ok .negotiated))
    | checks, .save _ => (checks, .reply (.ok ()))
    | checks, .catalog _ | checks, .entries _ | checks, .address _ | checks, .refresh _
    | checks, .fetch _ _ | checks, .partners _ | checks, .connectors _ | checks, .findTwin _ _ _
    | checks, .history _ => (checks, .crash none)

theorem hesitant_answers : hesitant.Answers := by
  intro world c millis h
  cases c <;> cases h

theorem hesitant_begins (request : NegotiationRequest) :
    ¬ hesitant.Fails (Call.initiate request) := by
  rintro ⟨world, message, h | h⟩ <;> cases h

theorem hesitant_tells (id : String) : ¬ hesitant.Fails (Call.negotiationState id) := by
  rintro ⟨world, message, h | h⟩ <;> cases h

theorem hesitant_saves (record : NegotiationRecord) : ¬ hesitant.Fails (Call.save record) := by
  rintro ⟨world, message, h | h⟩ <;> cases h

def hesitantStart : Shared hesitant :=
  ⟨(0 : Nat), 0, 0, 0⟩

def hesitantRun : Machine hesitant memory NegotiationRecord :=
  .start hesitantStart .empty 1 [negotiate ⟨1000, 5⟩ "p" default]

theorem hesitant_comes_to : hesitant.Answers ∧
    (∃ r enough, ∀ fuel, enough ≤ fuel →
      (hesitantRun.settle fuel).outcomes = [some (.value r)] ∧
        Upshot ⟨1000, 5⟩ (hesitantRun.trace (hesitantRun.itinerary fuel)) r) ∧
    (hesitantRun.trace (hesitantRun.itinerary 40)).filterMap question? =
      [(1007, "n1"), (2007, "n1")] :=
  ⟨hesitant_answers,
    negotiate_comes_to hesitant_answers (hesitant_begins _) hesitant_tells hesitant_saves ⟨1000, 5⟩
      "p" hesitantStart .empty Nat.one_pos,
    by decide +kernel⟩

end Dataspace.Exchange
