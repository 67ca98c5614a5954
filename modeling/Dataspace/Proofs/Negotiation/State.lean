import Dataspace.Negotiation.State
import Dataspace.Proofs.Json.Codec
/-!
States that were read from a text.  What is written of such a state is read as the same state.
-/

namespace Dataspace.NegotiationState

/-- A state that some text stands for. -/
def Parsed (s : NegotiationState) : Prop :=
  ∃ written, ofText written = s

/-- A state that was read has a word of its own, or keeps the text that it was read from. -/
theorem ofText_text {s : NegotiationState} (h : s.Parsed) : ofText s.text = s := by
  obtain ⟨written, rfl⟩ := h
  cases hstate : ofText written with
  | other kept =>
      have hkept : kept = written := by
        unfold ofText at hstate
        split at hstate <;> simp_all
      rw [text, hkept, hstate, hkept]
  | _ => decide

theorem codec_readsBack {s : NegotiationState} (h : s.Parsed) : codec.ReadsBack s :=
  Codec.through_readsBack (Codec.text_readsBack _) (ofText_text h)

end Dataspace.NegotiationState
