import Dataspace.Exchange.Negotiate
import Dataspace.Proofs.Json.Reread
import Dataspace.Proofs.Text.Parts
import Dataspace.Proofs.WireForm
/-!
The texts of states.  A state with a name of its own is what its word stands for, behind whatever
colons and among whatever blanks, and any other text is a state that keeps it.  So a state is the
same when it is read again from what was written of it, alone or within an entry, a credential or
a record.  Main statement: `state_texts_settle`.
-/

namespace Dataspace

open Json.Reader (depthLimit)

namespace NegotiationState

/-- The states that do not keep the text that they were read from. -/
def IsNamed : NegotiationState → Prop
  | other _ => False
  | _ => True

/-- What stands after the last colon is this word, but for blanks around it and for small letters
among those of ASCII. -/
def Says (s word : String) : Prop :=
  ∃ bare core, Text.IsLast ':' s.toList bare ∧ Text.Trims bare core ∧
    core.map Char.toUpper = word.toList

variable {s : String} {st : NegotiationState}

theorem word_eq_iff {w : String} : word s = w ↔ Says s w := by
  rw [← String.toList_inj, word, String.toList_ofList]
  constructor
  · intro h
    exact ⟨_, _, Text.afterLast_eq_iff.1 rfl, Text.trims_trimChars _, h⟩
  · rintro ⟨bare, core, hbare, hcore, hword⟩
    rw [hbare.afterLast_eq, hcore.trimChars_eq, hword]

/-- A text stands for a state with a name just if it says that name. -/
theorem ofText_eq_iff (h : st.IsNamed) : ofText s = st ↔ Says s st.text := by
  rw [← word_eq_iff, ofText]
  cases st with
  | other kept => exact h.elim
  | _ => split <;> simp_all [text]

theorem eq_of_ofText_eq_other {kept : String} (h : ofText s = other kept) : kept = s := by
  unfold ofText at h
  split at h <;> simp_all

theorem parsed_of_decode {v : Json} (h : codec.decode v = .ok st) : st.Parsed := by
  cases v with
  | text s => exact ⟨s, Except.ok.inj h⟩
  | _ => cases h

theorem parsed_of_gives {name : String} (h : (Field.required name codec).Gives st) : st.Parsed := by
  obtain ⟨v, hv⟩ := (Field.required_gives name codec st).1 h
  exact parsed_of_decode hv

end NegotiationState

/-! ## Entries, credentials and records -/

@[simp] theorem NegotiationState.readable_codec {depth : Nat} (st : NegotiationState) :
    (NegotiationState.codec.encode st).Readable depth :=
  trivial

theorem EdrEntry.writable_of_decode {v : Json} {e : EdrEntry}
    (h : EdrEntry.codec.decode v = .ok e) :
    e.Writable := by
  obtain ⟨⟨agreement, transfer, asset, provider, state, created, _⟩, hgives, rfl⟩ :=
    Codec.gives_of_record h
  obtain ⟨-, -, -, -, hstate, hcreated, -⟩ := hgives
  rw [Field.orNamed_gives] at hstate
  refine ⟨NegotiationState.parsed_of_gives hstate, ?_⟩
  rintro n rfl
  obtain ⟨v, hv⟩ :=
    Field.gives_of_absent_none (by simp [Field.sparse]) (by simp [Field.sparse]) hcreated
  exact Codec.bounds_of_decode_int (Codec.decode_of_optional hv)

theorem EdrEntry.codec_settles : EdrEntry.codec.Settles EdrEntry.Writable where
  fits _ _ := EdrEntry.writable_of_decode
  rereads e h := by
    have hcreated : (Codec.int64.optional.encode e.createdAt).Readable (depthLimit - 1) :=
      Codec.readable_optional fun n hn => ⟨(h.2 n hn).1, (h.2 n hn).2.trans (by decide)⟩
    exact Codec.reread?_record (EdrEntry.codec_readsBack h) (by
      simp [Layout.Readable, Field.orNamed, Field.required, Field.optional, Field.sparse, hcreated])

theorem EdrToken.writable_of_decode {v : Json} {t : EdrToken}
    (h : EdrToken.codec.decode v = .ok t) :
    t.Writable := by
  obtain ⟨⟨transfer, asset, agreement, provider, state, authorization, endpoint, token, refresh,
    audience, expires, _⟩, hgives, rfl⟩ := Codec.gives_of_record h
  obtain ⟨-, -, -, -, hstate, -, -, -, -, -, hexpires, -⟩ := hgives
  refine ⟨NegotiationState.parsed_of_gives hstate, ?_⟩
  rintro n rfl
  obtain ⟨v, hv⟩ :=
    Field.gives_of_absent_none (by simp [Field.nullable]) (by simp [Field.nullable]) hexpires
  exact Codec.le_of_decode_nat (Codec.decode_of_optional hv)

theorem EdrToken.codec_settles : EdrToken.codec.Settles EdrToken.Writable where
  fits _ _ := EdrToken.writable_of_decode
  rereads t h := by
    have hexpires : (Codec.word64.optional.encode t.expiresIn).Readable (depthLimit - 1) :=
      Codec.readable_optional fun n hn => ⟨by simp, Int.ofNat_le.2 (h.2 n hn)⟩
    exact Codec.reread?_record (EdrToken.codec_readsBack h) (by
      simp [Layout.Readable, Field.required, Field.nullable, hexpires])

theorem NegotiationRecord.writable_of_decode {v : Json} {r : NegotiationRecord}
    (h : NegotiationRecord.codec.decode v = .ok r) : r.Writable := by
  obtain ⟨⟨id, process, connector, offer, negotiation, status, state, error, timestamp, _⟩, hgives,
    rfl⟩ := Codec.gives_of_record h
  obtain ⟨-, -, -, -, -, -, -, -, htime, -⟩ := hgives
  rw [Field.required_gives] at htime
  obtain ⟨written, hwritten⟩ := htime
  exact Moment.valid_of_decode hwritten

theorem NegotiationRecord.codec_settles :
    NegotiationRecord.codec.Settles NegotiationRecord.Writable where
  fits _ _ := NegotiationRecord.writable_of_decode
  rereads r h := by
    have hstatus : (NegotiationStatus.codec.encode r.status).Readable (depthLimit - 1) := trivial
    have htime : (Moment.codec.encode r.timestamp).Readable (depthLimit - 1) := trivial
    exact Codec.reread?_record (NegotiationRecord.codec_readsBack h) (by
      simp [Layout.Readable, Field.required, Field.nullable, hstatus, htime])

/-- The state that the record of an attempt tells is the last one that was reported. -/
theorem Exchange.Attempt.ofText_remoteState (a : Exchange.Attempt)
    (hparsed : ∀ st ∈ a.lastState, st.Parsed) (status : NegotiationStatus) (error : Option String)
    (moment : Moment) :
    (a.record status error moment).remoteState.map NegotiationState.ofText = a.lastState := by
  change (a.lastState.map NegotiationState.text).map NegotiationState.ofText = a.lastState
  cases hlast : a.lastState with
  | none => rfl
  | some st => exact congrArg some (NegotiationState.ofText_text (hparsed st hlast))

namespace NegotiationState

/-- A state is read from its own text as itself, and one without a name has the text that it was
read from.  It has a name just if the text says one, as it is when `NEGOTIATED` or `TERMINATED`
is what stands after the last colon.  So entries and credentials have their states again when
they are read from what was written of them, whether these are over, negotiated or neither, and
so have the records of attempts. -/
theorem state_texts_settle :
    (∀ s, ofText (ofText s).text = ofText s) ∧
    (∀ s kept, ofText s = other kept → (ofText s).text = s) ∧
    (∀ s st, st.IsNamed → (ofText s = st ↔ Says s st.text)) ∧
    EdrEntry.codec.Settles EdrEntry.Writable ∧
    EdrToken.codec.Settles EdrToken.Writable ∧
    NegotiationRecord.codec.Settles NegotiationRecord.Writable ∧
    ∀ (a : Exchange.Attempt) status error moment, (∀ st ∈ a.lastState, st.Parsed) →
      (a.record status error moment).remoteState.map ofText = a.lastState := by
  refine ⟨fun s => ofText_text ⟨s, rfl⟩, fun s kept h => ?_, fun s st => ofText_eq_iff,
    EdrEntry.codec_settles, EdrToken.codec_settles, NegotiationRecord.codec_settles,
    fun a status error moment h => a.ofText_remoteState h status error moment⟩
  rw [h, text, eq_of_ofText_eq_other h]

/-- A credential in a state without a name. -/
def unsettled : EdrToken :=
  ⟨"tp", "a1", none, some "BPNL1", ofText "edc:VERIFIED", "t0", "https://p.example", none, none,
    none, some 300⟩

/-- An attempt that was refused in the end. -/
def refused : Exchange.Attempt :=
  ⟨"r1", "p1", "BPNL1", "o1", some "n1", some (ofText "edc: Terminated\t")⟩

theorem texts_settled :
    Says "edc: Terminated\t" "TERMINATED" ∧ (ofText "edc:VERIFIED").text = "edc:VERIFIED" ∧
    EdrToken.codec.reread? unsettled = some unsettled ∧
    (refused.record .terminated none (Moment.ofNanos 1)).remoteState.map ofText =
      some terminated := by
  obtain ⟨-, hkept, hnamed, -, htoken, -, hrecord⟩ := state_texts_settle
  have hterminated : ofText "edc: Terminated\t" = terminated := by decide
  have hwritable : unsettled.Writable := ⟨⟨"edc:VERIFIED", rfl⟩, by decide⟩
  have hparsed : ∀ st ∈ refused.lastState, st.Parsed := fun st hst =>
    ⟨"edc: Terminated\t", Option.some.inj hst⟩
  refine ⟨(hnamed _ terminated trivial).1 hterminated, hkept _ "edc:VERIFIED" (by decide),
    htoken.rereads _ hwritable, ?_⟩
  rw [hrecord refused .terminated none _ hparsed, refused, hterminated]

end NegotiationState

end Dataspace
