import Dataspace.Json.Printer
import Dataspace.Json.Reader
import Dataspace.Proofs.Audit.Order
import Mathlib.Data.List.TakeWhile
/-!
Printed values are read back.  Each character of a quoted text is written so
that the reader takes it up again, a word outside quotes ends where
punctuation begins, and a container is read back with what is in it, as long
as there are not too many inside each other.  Main statement: `read?_render`.
-/

namespace Dataspace.Json

open Reader

variable {frames : List Frame} {place : Place}

/-! ## Quoted texts -/

theorem hexValue?_hexDigit : ∀ n < 16, Text.Form.hexValue? (Text.Quoted.hexDigit n) = some n := by
  decide

/-- A character is taken up as it was before it was escaped. -/
theorem foldlM_escapeChar (c : Char) (passed : List Char) :
    (escapeChar c).foldlM step ⟨.text passed, frames, place⟩ =
      some ⟨.text (c :: passed), frames, place⟩ := by
  by_cases hletter : c ∈ ['"', '\\', '\n', '\r', '\t', '\x08', '\x0c']
  · have hall : ∀ c ∈ ['"', '\\', '\n', '\r', '\t', '\x08', '\x0c'],
        (escapeChar c).foldlM step ⟨.text passed, frames, place⟩ =
          some ⟨.text (c :: passed), frames, place⟩ := by
      simp only [List.forall_mem_cons]
      exact ⟨rfl, rfl, rfl, rfl, rfl, rfl, rfl, nofun⟩
    exact hall c hletter
  · simp only [List.mem_cons, List.not_mem_nil, or_false, not_or] at hletter
    obtain ⟨hquote, hslash, hline, hreturn, htab, hback, hfeed⟩ := hletter
    by_cases hlow : c.toNat < 32
    · have hhigh := hexValue?_hexDigit (c.toNat / 16) (by omega)
      have hlast := hexValue?_hexDigit (c.toNat % 16) (by omega)
      have hwritten : escapeChar c = ['\\', 'u', '0', '0'] ++
          [Text.Quoted.hexDigit (c.toNat / 16), Text.Quoted.hexDigit (c.toNat % 16)] := by
        simp [escapeChar, hquote, hslash, hline, hreturn, htab, hback, hfeed, hlow]
      have hunit : ['\\', 'u', '0', '0'].foldlM step ⟨.text passed, frames, place⟩ =
          some ⟨.unit passed none 2 0, frames, place⟩ := rfl
      have hvalue : c.toNat / 16 * 16 + c.toNat % 16 = c.toNat := Nat.div_add_mod' ..
      -- The unit is no half of a pair.
      have hfirst : ¬ 0xd800 ≤ c.toNat := by omega
      have hsecond : ¬ 0xdc00 ≤ c.toNat := by omega
      rw [hwritten, List.foldlM_append, hunit]
      simp [step, stepUnit, hhigh, hlast, hvalue, hfirst, hsecond]
    · simp [escapeChar, hquote, hslash, hline, hreturn, htab, hback, hfeed, hlow, step]

theorem foldlM_escaped (cs passed : List Char) :
    (cs.flatMap escapeChar).foldlM step ⟨.text passed, frames, place⟩ =
      some ⟨.text (cs.reverse ++ passed), frames, place⟩ := by
  induction cs generalizing passed with
  | nil => rfl
  | cons c cs ih =>
      rw [List.flatMap_cons, List.foldlM_append, foldlM_escapeChar, Option.bind_eq_bind,
        Option.bind_some, ih, List.reverse_cons, List.append_assoc, List.singleton_append]

/-- A quoted text is read as the text. -/
theorem foldlM_quote (s : String) (rest : List Char) :
    ((quote s).toList ++ rest).foldlM step ⟨.between, frames, place⟩ =
      (pushText s ⟨.text s.toList.reverse, frames, place⟩).bind (rest.foldlM step) := by
  have hopen : step ⟨.between, frames, place⟩ '"' = some ⟨.text [], frames, place⟩ := rfl
  have hclose : step ⟨.text s.toList.reverse, frames, place⟩ '"' =
      pushText s ⟨.text s.toList.reverse, frames, place⟩ := by
    simp [step]
  rw [quote, String.toList_ofList]
  simp only [List.cons_append, List.append_assoc, List.foldlM_cons, hopen, List.foldlM_append,
    Option.bind_eq_bind, Option.bind_some, foldlM_escaped, List.append_nil, List.nil_append, hclose]

/-! ## Words -/

/-- A character that neither ends a word nor begins anything else. -/
def inWord (c : Char) : Bool :=
  !(isSpace c || isPunctuation c || c == '"')

theorem step_inWord {c : Char} (h : inWord c = true) :
    step ⟨.between, frames, place⟩ c = some ⟨.word [c], frames, place⟩ ∧
      ∀ passed, step ⟨.word passed, frames, place⟩ c =
        some ⟨.word (c :: passed), frames, place⟩ := by
  simp only [inWord, Bool.not_eq_true', Bool.or_eq_false_iff, beq_eq_false_iff_ne] at h
  obtain ⟨⟨hspace, hpunctuation⟩, hquote⟩ := h
  exact ⟨by simp [step, stepBetween, hspace, hpunctuation, hquote],
    fun passed => by simp [step, hspace, hpunctuation, hquote]⟩

/-- A word that the reader takes for this value. -/
structure IsWord (word : List Char) (v : Json) : Prop where
  nonempty : word ≠ []
  whole : word.all inWord = true
  value : scalar? word = some v

theorem foldlM_word {word : List Char} (h : ∀ c ∈ word, inWord c = true) (passed : List Char) :
    word.foldlM step ⟨.word passed, frames, place⟩ =
      some ⟨.word (word.reverse ++ passed), frames, place⟩ := by
  induction word generalizing passed with
  | nil => rfl
  | cons c cs ih =>
      obtain ⟨hc, hcs⟩ := List.forall_mem_cons.1 h
      rw [List.foldlM_cons, (step_inWord hc).2, Option.bind_eq_bind, Option.bind_some, ih hcs,
        List.reverse_cons, List.append_assoc, List.singleton_append]

theorem IsWord.foldlM_step {word : List Char} {v : Json} (h : IsWord word v) :
    word.foldlM step ⟨.between, frames, place⟩ = some ⟨.word word.reverse, frames, place⟩ := by
  obtain ⟨hne, hwhole, -⟩ := h
  cases word with
  | nil => exact absurd rfl hne
  | cons c cs =>
      obtain ⟨hc, hcs⟩ := List.forall_mem_cons.1 (List.all_eq_true.1 hwhole)
      rw [List.foldlM_cons, (step_inWord hc).1, Option.bind_eq_bind, Option.bind_some,
        foldlM_word hcs, List.reverse_cons]

/-! ## Whole numbers -/

theorem decimal_toDigits (n : Nat) : decimal (Nat.toDigits 10 n) = n := by
  have hfold : decimal (Nat.toDigits 10 n) = Nat.ofDigitChars 10 (Nat.toDigits 10 n) 0 := by
    simp [decimal, Nat.ofDigitChars, Nat.mul_comm]
  rw [hfold, Nat.ofDigitChars_toDigits (by decide) (by decide)]

theorem isDigit_of_mem_toDigits {n : Nat} {c : Char} (h : c ∈ Nat.toDigits 10 n) :
    c.isDigit = true :=
  Nat.isDigit_of_mem_toDigits (by decide) (by decide) h

/-- Only the number zero is written with a zero first. -/
theorem head?_toDigits {n : Nat} (h : 0 < n) : (Nat.toDigits 10 n).head? ≠ some '0' := by
  induction n using Nat.strongRecOn with
  | ind n ih =>
      rcases Nat.lt_or_ge n 10 with hlt | hge
      · have hall : ∀ d < 10, 0 < d → some (Nat.digitChar d) ≠ some '0' := by decide
        rw [Nat.toDigits_of_lt_base hlt, List.head?_cons]
        exact hall n hlt h
      · rw [Text.toDigits_of_ten_le hge, List.head?_append_of_ne_nil _ Nat.toDigits_ne_nil]
        exact ih (n / 10) (by omega) (by omega)

/-- A run of digits without a zero first that could be left out. -/
structure IsDecimal (digits : List Char) (n : Nat) : Prop where
  nonempty : digits.isEmpty = false
  lead : 1 < digits.length → digits.head? ≠ some '0'
  whole : digits.takeWhile Char.isDigit = digits
  rest : digits.dropWhile Char.isDigit = []
  value : decimal digits = n

theorem isDecimal_toDigits (n : Nat) : IsDecimal (Nat.toDigits 10 n) n where
  nonempty := by simp [Nat.toDigits_ne_nil]
  lead := by
    rcases Nat.eq_zero_or_pos n with rfl | hpos
    · decide
    · exact fun _ => head?_toDigits hpos
  whole := List.takeWhile_eq_self_iff.2 fun _ => isDigit_of_mem_toDigits
  rest := List.dropWhile_eq_nil_iff.2 fun _ => isDigit_of_mem_toDigits
  value := decimal_toDigits n

theorem number?_toDigits {n : Nat} (h : n < 0x10000000000000000) :
    number? (Nat.toDigits 10 n) = some (.int n) := by
  have hminus : '-' ∉ Nat.toDigits 10 n := fun hmem =>
    absurd (isDigit_of_mem_toDigits hmem) (by decide)
  obtain ⟨hne, hlead, hwhole, hrest, hvalue⟩ := isDecimal_toDigits n
  cases hdigits : Nat.toDigits 10 n with
  | nil => exact absurd hdigits Nat.toDigits_ne_nil
  | cons c cs =>
      rw [hdigits] at hminus hlead hwhole hrest hvalue
      have hc : c ≠ '-' := fun h => hminus (h ▸ List.mem_cons_self)
      simpa [number?, hc, hwhole, hrest, hvalue, h] using hlead

theorem number?_minus {n : Nat} (hne : n ≠ 0) (h : n ≤ 0x8000000000000000) :
    number? ('-' :: Nat.toDigits 10 n) = some (.int (-n)) := by
  obtain ⟨hempty, hlead, hwhole, hrest, hvalue⟩ := isDecimal_toDigits n
  simpa [number?, hempty, hwhole, hrest, hvalue, hne, h] using hlead

theorem inWord_of_isDigit {c : Char} (h : c.isDigit = true ∨ c = '-') :
    inWord c = true ∧ c ∉ ['n', 't', 'f'] := by
  rcases h with h | rfl
  · have hall : ∀ n < 58, (Char.ofNat n).isDigit = true →
        inWord (Char.ofNat n) = true ∧ Char.ofNat n ∉ ['n', 't', 'f'] := by
      decide
    have hlast : c.toNat < 58 := by
      simp only [Char.isDigit, Bool.and_eq_true, decide_eq_true_eq] at h
      exact Nat.lt_succ_of_le (UInt32.le_iff_toNat_le.1 h.2)
    have hc := hall c.toNat hlast
    rw [Char.ofNat_toNat] at hc
    exact hc h
  · decide

/-- A word of digits, with a sign or without, is no name of a value. -/
theorem isWord_of_number? {word : List Char} {v : Json} (h : number? word = some v)
    (hne : word ≠ []) (hchars : ∀ c ∈ word, c.isDigit = true ∨ c = '-') : IsWord word v := by
  refine ⟨hne, List.all_eq_true.2 fun c hc => (inWord_of_isDigit (hchars c hc)).1, ?_⟩
  have hnot : ∀ c cs, word = c :: cs → c ∉ ['n', 't', 'f'] := by
    rintro c cs rfl
    exact (inWord_of_isDigit (hchars c List.mem_cons_self)).2
  rw [scalar?, if_neg, if_neg, if_neg, h]
  all_goals
    intro hword
    exact absurd (hnot _ _ hword) (by decide)

/-- A whole number is written as a word of digits. -/
theorem isWord_int {n : Int} (h : -0x8000000000000000 ≤ n ∧ n ≤ 0xffffffffffffffff) :
    IsWord (toString n).toList (.int n) := by
  cases n with
  | ofNat n =>
      have hchars : (toString (Int.ofNat n)).toList = Nat.toDigits 10 n := Nat.toList_repr
      have hbound : n ≤ 0xffffffffffffffff := Int.ofNat_le.1 h.2
      rw [hchars]
      exact isWord_of_number? (number?_toDigits (Nat.lt_succ_of_le hbound)) Nat.toDigits_ne_nil
        fun c hc => .inl (isDigit_of_mem_toDigits hc)
  | negSucc n =>
      have hchars : (toString (Int.negSucc n)).toList = '-' :: Nat.toDigits 10 (n + 1) := by
        have hwritten : toString (Int.negSucc n) = "-" ++ Nat.repr (n + 1) := rfl
        rw [hwritten, String.toList_append, Nat.toList_repr]
        rfl
      rw [hchars]
      refine isWord_of_number? (number?_minus n.succ_ne_zero (by omega)) (List.cons_ne_nil _ _)
        fun c hc => ?_
      exact (List.mem_cons.1 hc).symm.imp_left isDigit_of_mem_toDigits

/-! ## Values -/

mutual

/-- A value that the reader has room for: whole numbers are within 64 bits, other numbers are
words of their own, and at most `depth` containers are inside each other. -/
def Readable : (depth : Nat) → Json → Prop
  | _, .null | _, .bool _ | _, .text _ => True
  | _, .int n => -0x8000000000000000 ≤ n ∧ n ≤ 0xffffffffffffffff
  | _, .real written => IsWord written.toList (.real written)
  | depth + 1, .list items => ReadableItems depth items
  | depth + 1, .object members => ReadableMembers depth members
  | 0, .list _ | 0, .object _ => False

def ReadableItems : (depth : Nat) → List Json → Prop
  | _, [] => True
  | depth, v :: rest => Readable depth v ∧ ReadableItems depth rest

def ReadableMembers : (depth : Nat) → List (String × Json) → Prop
  | _, [] => True
  | depth, (_, v) :: rest => Readable depth v ∧ ReadableMembers depth rest

end

def Place.IsOpen (place : Place) : Prop :=
  place = .value ∨ place = .firstItem

/-- The characters are taken for a value, though a word may be under way at their end. -/
def Takes (frames : List Frame) (place : Place) (cs : List Char) (v : Json) : Prop :=
  ∃ r : Reader, cs.foldlM step ⟨.between, frames, place⟩ = some r ∧
    r.flush = some ⟨.between, frames, .after v⟩

section Taking

variable {cs : List Char} {v : Json}

theorem push_of_isOpen (h : place.IsOpen) (scan : Scan) (v : Json) :
    push v ⟨scan, frames, place⟩ = some ⟨.between, frames, .after v⟩ := by
  rcases h with rfl | rfl <;> rfl

theorem IsWord.takes (h : IsWord cs v) (hplace : place.IsOpen) : Takes frames place cs v := by
  refine ⟨_, h.foldlM_step, ?_⟩
  simp only [flush, List.reverse_reverse, h.value, Option.bind_eq_bind, Option.bind_some]
  exact push_of_isOpen hplace _ v

theorem takes_quote (s : String) (hplace : place.IsOpen) :
    Takes frames place (quote s).toList (.text s) := by
  have hread : ((quote s).toList ++ []).foldlM step ⟨.between, frames, place⟩ =
      (pushText s ⟨.text s.toList.reverse, frames, place⟩).bind ([].foldlM step) :=
    foldlM_quote s []
  have hpush : pushText s ⟨.text s.toList.reverse, frames, place⟩ =
      some ⟨.between, frames, .after (.text s)⟩ := by
    rcases hplace with rfl | rfl <;> rfl
  rw [List.append_nil, hpush] at hread
  exact ⟨_, hread, rfl⟩

theorem isSpace_of_isPunctuation {c : Char} (h : isPunctuation c = true) : isSpace c = false := by
  simp only [isPunctuation, Bool.or_eq_true, beq_iff_eq] at h
  rcases h with ((((rfl | rfl) | rfl) | rfl) | rfl) | rfl <;> rfl

theorem stepBetween_of_isPunctuation {c : Char} (h : isPunctuation c = true) (r : Reader) :
    stepBetween c r = punctuate c r := by
  rw [stepBetween, isSpace_of_isPunctuation h, if_neg Bool.false_ne_true, if_pos h]

/-- Punctuation ends what is under way. -/
theorem step_of_flush {r : Reader} {c : Char} (hflush : r.flush = some ⟨.between, frames, place⟩)
    (hc : isPunctuation c = true) : step r c = punctuate c ⟨.between, frames, place⟩ := by
  rw [← stepBetween_of_isPunctuation hc]
  obtain ⟨scan, frames', place'⟩ := r
  cases scan with
  | word passed => simp [step, hc, hflush]
  | between =>
      cases Option.some.inj hflush
      rfl
  | text _ | escape _ | unit _ _ _ _ | pair _ _ _ => cases Option.some.inj hflush

/-- What punctuation makes of a value that stands before it. -/
theorem Takes.foldlM_append (h : Takes frames place cs v) {c : Char} (hc : isPunctuation c = true)
    (rest : List Char) : (cs ++ c :: rest).foldlM step ⟨.between, frames, place⟩ =
      (punctuate c ⟨.between, frames, .after v⟩).bind (rest.foldlM step) := by
  obtain ⟨r, hread, hflush⟩ := h
  rw [List.foldlM_append, hread, Option.bind_eq_bind, Option.bind_some, List.foldlM_cons,
    step_of_flush hflush hc]
  rfl

end Taking

section Containers

variable {items : List Json} {members : List (String × Json)}

/-- The items of a list are read one after the other, until it is closed. -/
theorem foldlM_renderItems {v : Json} {passed : List Json}
    (hitems : ∀ w ∈ v :: items, ∀ passed place, place.IsOpen →
      Takes (.list passed :: frames) place w.render.toList w) (hplace : place.IsOpen) :
    ((renderItems (v :: items)).toList ++ [']']).foldlM step
        ⟨.between, .list passed :: frames, place⟩ =
      some ⟨.between, frames, .after (.list (passed.reverse ++ v :: items))⟩ := by
  induction items generalizing v passed place with
  | nil =>
      have hv := hitems v List.mem_cons_self passed place hplace
      have hclosed : punctuate ']' ⟨.between, .list passed :: frames, .after v⟩ =
          some ⟨.between, frames, .after (.list (v :: passed).reverse)⟩ := rfl
      rw [renderItems, hv.foldlM_append rfl, hclosed, List.reverse_cons]
      rfl
  | cons w items ih =>
      obtain ⟨hv, hrest⟩ := List.forall_mem_cons.1 hitems
      have hcomma : punctuate ',' ⟨.between, .list passed :: frames, .after v⟩ =
          some ⟨.between, .list (v :: passed) :: frames, .value⟩ := rfl
      have hchars : (renderItems (v :: w :: items)).toList ++ [']'] =
          v.render.toList ++ ',' :: ((renderItems (w :: items)).toList ++ [']']) := by
        simp [renderItems]
      rw [hchars, (hv passed place hplace).foldlM_append rfl, hcomma, Option.bind_some,
        ih hrest (.inl rfl), List.reverse_cons, List.append_assoc, List.singleton_append]

/-- The name of a member, and the colon behind it. -/
theorem foldlM_name {passed : List (String × Json)} {before : String}
    (hplace : place = .firstName ∨ place = .name) (name : String) (rest : List Char) :
    ((quote name).toList ++ ':' :: rest).foldlM step
        ⟨.between, .object passed before :: frames, place⟩ =
      rest.foldlM step ⟨.between, .object passed name :: frames, .value⟩ := by
  have hpush : pushText name
      ⟨.text name.toList.reverse, .object passed before :: frames, place⟩ =
        some ⟨.between, .object passed name :: frames, .colon⟩ := by
    rcases hplace with rfl | rfl <;> rfl
  rw [foldlM_quote, hpush, Option.bind_some, List.foldlM_cons]
  rfl

/-- The members of an object are read one after the other, until it is closed. -/
theorem foldlM_renderMembers {m : String × Json} {passed : List (String × Json)}
    (hmembers : ∀ n ∈ m :: members, ∀ passed name,
      Takes (.object passed name :: frames) .value n.2.render.toList n.2)
    (hplace : place = .firstName ∨ place = .name) :
    ((renderMembers (m :: members)).toList ++ ['\x7d']).foldlM step
        ⟨.between, .object passed "" :: frames, place⟩ =
      some ⟨.between, frames, .after (.object (passed.reverse ++ m :: members))⟩ := by
  induction members generalizing m passed place with
  | nil =>
      obtain ⟨name, v⟩ := m
      have hv := hmembers _ List.mem_cons_self passed name
      have hclosed : punctuate '\x7d' ⟨.between, .object passed name :: frames, .after v⟩ =
          some ⟨.between, frames, .after (.object ((name, v) :: passed).reverse)⟩ := rfl
      have hchars : (renderMembers [(name, v)]).toList ++ ['\x7d'] =
          (quote name).toList ++ ':' :: (v.render.toList ++ ['\x7d']) := by
        simp [renderMembers]
      rw [hchars, foldlM_name hplace, hv.foldlM_append rfl, hclosed, List.reverse_cons]
      rfl
  | cons n members ih =>
      obtain ⟨name, v⟩ := m
      obtain ⟨hv, hrest⟩ := List.forall_mem_cons.1 hmembers
      have hcomma : punctuate ',' ⟨.between, .object passed name :: frames, .after v⟩ =
          some ⟨.between, .object ((name, v) :: passed) "" :: frames, .name⟩ := rfl
      have hchars : (renderMembers ((name, v) :: n :: members)).toList ++ ['\x7d'] =
          (quote name).toList ++ ':' ::
            (v.render.toList ++ ',' :: ((renderMembers (n :: members)).toList ++ ['\x7d'])) := by
        simp [renderMembers]
      rw [hchars, foldlM_name hplace, (hv passed name).foldlM_append rfl, hcomma, Option.bind_some,
        ih hrest (.inr rfl), List.reverse_cons, List.append_assoc, List.singleton_append]

/-- Where a value may stand, a container is opened as long as there is room. -/
theorem step_open (hplace : place.IsOpen) (hroom : frames.length < depthLimit) :
    step ⟨.between, frames, place⟩ '[' = some ⟨.between, .list [] :: frames, .firstItem⟩ ∧
      step ⟨.between, frames, place⟩ '\x7b' =
        some ⟨.between, .object [] "" :: frames, .firstName⟩ := by
  rcases hplace with rfl | rfl <;> exact ⟨if_pos hroom, if_pos hroom⟩

theorem takes_list (hplace : place.IsOpen) (hroom : frames.length < depthLimit)
    (hitems : ∀ v ∈ items, ∀ passed place, place.IsOpen →
      Takes (.list passed :: frames) place v.render.toList v) :
    Takes frames place (render (.list items)).toList (.list items) := by
  have hchars : (render (.list items)).toList = '[' :: ((renderItems items).toList ++ [']']) := by
    simp [render]
  refine ⟨⟨.between, frames, .after (.list items)⟩, ?_, rfl⟩
  rw [hchars, List.foldlM_cons, (step_open hplace hroom).1]
  cases items with
  | nil => rfl
  | cons v items => exact foldlM_renderItems hitems (.inr rfl)

theorem takes_object (hplace : place.IsOpen) (hroom : frames.length < depthLimit)
    (hmembers : ∀ m ∈ members, ∀ passed name,
      Takes (.object passed name :: frames) .value m.2.render.toList m.2) :
    Takes frames place (render (.object members)).toList (.object members) := by
  have hchars : (render (.object members)).toList =
      '\x7b' :: ((renderMembers members).toList ++ ['\x7d']) := by
    simp [render]
  refine ⟨⟨.between, frames, .after (.object members)⟩, ?_, rfl⟩
  rw [hchars, List.foldlM_cons, (step_open hplace hroom).2]
  cases members with
  | nil => rfl
  | cons m members => exact foldlM_renderMembers hmembers (.inl rfl)

end Containers

mutual

-- By recursion on values.  What is in a container is read with one more frame open, so the depth
-- that is left for it is one less.
theorem takes_render {depth : Nat} {frames : List Frame} {place : Place} (hplace : place.IsOpen)
    (hdepth : frames.length + depth ≤ depthLimit) : (v : Json) → v.Readable depth →
      Takes frames place v.render.toList v
  | .null, _ => IsWord.takes ⟨by decide, by decide, rfl⟩ hplace
  | .bool true, _ => IsWord.takes ⟨by decide, by decide, rfl⟩ hplace
  | .bool false, _ => IsWord.takes ⟨by decide, by decide, rfl⟩ hplace
  | .int _, h => (isWord_int h).takes hplace
  | .real _, h => h.takes hplace
  | .text s, _ => takes_quote s hplace
  | .list items, h => by
      cases depth with
      | zero => exact h.elim
      | succ depth =>
          exact takes_list hplace (by omega) fun v hv passed place hplace =>
            takes_items hplace (by rw [List.length_cons]; omega) items h v hv
  | .object members, h => by
      cases depth with
      | zero => exact h.elim
      | succ depth =>
          exact takes_object hplace (by omega) fun m hm passed name =>
            takes_members (by rw [List.length_cons]; omega) members h m hm

theorem takes_items {depth : Nat} {frames : List Frame} {place : Place} (hplace : place.IsOpen)
    (hdepth : frames.length + depth ≤ depthLimit) :
    (items : List Json) → ReadableItems depth items →
      ∀ v ∈ items, Takes frames place v.render.toList v
  | [], _ => nofun
  | v :: items, h =>
      List.forall_mem_cons.2 ⟨takes_render hplace hdepth v h.1, takes_items hplace hdepth items h.2⟩

theorem takes_members {depth : Nat} {frames : List Frame}
    (hdepth : frames.length + depth ≤ depthLimit) : (members : List (String × Json)) →
      ReadableMembers depth members → ∀ m ∈ members, Takes frames .value m.2.render.toList m.2
  | [], _ => nofun
  | (_, v) :: members, h =>
      List.forall_mem_cons.2
        ⟨takes_render (.inl rfl) hdepth v h.1, takes_members hdepth members h.2⟩

end

/-- A value that the reader has room for is read back from its text. -/
theorem read?_render {v : Json} (h : v.Readable depthLimit) : read? v.render = some v := by
  have hroom : ([] : List Frame).length + depthLimit ≤ depthLimit := by simp
  obtain ⟨r, hread, hflush⟩ := takes_render (.inl rfl) hroom v h
  rw [read?, Reader.start, hread, Option.bind_eq_bind, Option.bind_some, Reader.result?, hflush]
  rfl

end Dataspace.Json
