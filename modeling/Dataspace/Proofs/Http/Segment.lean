import Dataspace.Http.Parties
import Dataspace.Proofs.Http.Asked
import Dataspace.Proofs.Http.Path
import Dataspace.Proofs.Text.Bytes
/-!
Ids in the paths that a connector is asked at.  An id is written as a component of a query would
be, which a path reads back unless there is a space in it; and a segment of dots is no segment of
its own.  Main statement: `Inquiry.id_survives_iff`.
-/

namespace Dataspace.Http

open Text.Form

/-! ## Ids as segments -/

section Segments

variable {id : String}

/-- The byte that a path reads where this one was written. -/
def readByte (b : UInt8) : UInt8 :=
  if b = 32 then 43 else b

theorem percentDecode_encodeByte_plus (b : UInt8) (rest : List Char) :
    percentDecode (encodeByte b ++ rest) = readByte b :: percentDecode rest := by
  by_cases hb : b = 32
  · have hplus : (String.singleton '+').toUTF8.toList = [43] := by decide +kernel
    have hwritten : encodeByte b = ['+'] := by rw [hb]; decide
    rw [hwritten, List.singleton_append, percentDecode_cons (by decide), hplus, readByte, if_pos hb,
      List.singleton_append]
  · have hall : ∀ n < 256, UInt8.ofNat n ≠ 32 →
        (encodeByte (UInt8.ofNat n)).map unplus = encodeByte (UInt8.ofNat n) := by
      decide +kernel
    have hunplus := hall b.toNat b.toNat_lt_size (by rwa [UInt8.ofNat_toNat])
    rw [UInt8.ofNat_toNat] at hunplus
    rw [readByte, if_neg hb, ← Text.Form.percentDecode_encodeByte b rest, hunplus]

theorem percentDecode_segment (id : String) :
    percentDecode (segment id).toList = id.toUTF8.toList.map readByte := by
  rw [segment, encode, String.toList_ofList, encodeBytes]
  induction id.toUTF8.toList with
  | nil => rw [List.flatMap_nil, percentDecode]; rfl
  | cons b bytes ih => rw [List.flatMap_cons, percentDecode_encodeByte_plus, ih, List.map_cons]

/-- A path reads an id back just if there is no space in it. -/
theorem percentDecode_segment_eq_iff :
    percentDecode (segment id).toList = id.toUTF8.toList ↔ ' ' ∉ id.toList := by
  have hspace : (32 : UInt8) ∈ id.toUTF8.toList ↔ ' ' ∈ id.toList :=
    Text.mem_toUTF8_iff (c := ' ') (by decide) id
  rw [percentDecode_segment, ← hspace]
  constructor
  · intro h hmem
    rw [← h, List.mem_map] at hmem
    obtain ⟨b, -, hb⟩ := hmem
    unfold readByte at hb
    split at hb
    · exact absurd hb (by decide)
    · contradiction
  · intro h
    refine (List.map_congr_left fun b hb => if_neg ?_).trans (List.map_id _)
    rintro rfl
    exact h hb

/-- An id is written with characters that stay as they are in a path. -/
theorem isPathEscaped_segment {c : Char} (h : c ∈ (segment id).toList) :
    Url.isPathEscaped c = false := by
  have hall : ∀ n < 256,
      (encodeByte (UInt8.ofNat n)).all (fun c => !Url.isPathEscaped c) = true := by
    decide +kernel
  rw [segment, encode, String.toList_ofList, encodeBytes, List.mem_flatMap] at h
  obtain ⟨b, -, hc⟩ := h
  have hb := hall b.toNat b.toNat_lt_size
  rw [UInt8.ofNat_toNat] at hb
  simpa using List.all_eq_true.1 hb c hc

theorem escaped_of_kept {cs : List Char} (h : ∀ c ∈ cs, Url.isPathEscaped c = false) :
    Url.escaped Url.isPathEscaped cs = String.ofList cs := by
  rw [Url.escaped]
  congr 1
  induction cs with
  | nil => rfl
  | cons c cs ih =>
      obtain ⟨hc, hcs⟩ := List.forall_mem_cons.1 h
      rw [List.flatMap_cons, hc, if_neg Bool.false_ne_true, ih hcs, List.singleton_append]

theorem escaped_segment (id : String) :
    Url.escaped Url.isPathEscaped (segment id).toList = segment id := by
  rw [escaped_of_kept fun c => isPathEscaped_segment, String.ofList_toList]

/-! ## Dots -/

theorem eq_or_of_toLower_eq {c d : Char} (h : c.toLower = d) :
    c = d ∨ d.toNat = c.toNat + 32 ∧ 65 ≤ c.toNat ∧ c.toNat ≤ 90 := by
  unfold Char.toLower at h
  split at h
  · next hupper =>
      have hlow : 65 ≤ c.toNat := UInt32.le_iff_toNat_le.1 hupper.1
      have hhigh : c.toNat ≤ 90 := UInt32.le_iff_toNat_le.1 hupper.2
      refine .inr ⟨?_, hlow, hhigh⟩
      have hsum : d.toNat = (c.val + 32).toNat := h ▸ rfl
      have hvalue : c.val.toNat = c.toNat := rfl
      rw [hsum, UInt32.toNat_add, hvalue]
      exact Nat.mod_eq_of_lt (Nat.lt_of_le_of_lt (Nat.add_le_add_right hhigh 32) (by decide))
  · exact .inl h

/-- A dot in a path, written plainly or with a percent sign. -/
def IsDot (cs : List Char) : Prop :=
  cs = ['.'] ∨ ∃ e, cs = ['%', '2', e] ∧ hexValue? e = some 14

theorem IsDot.percentDecode_append {cs : List Char} (h : IsDot cs) (rest : List Char) :
    percentDecode (cs ++ rest) = 46 :: percentDecode rest := by
  rcases h with rfl | ⟨e, rfl, he⟩
  · have hdot : (String.singleton '.').toUTF8.toList = [46] := by decide +kernel
    rw [List.singleton_append, percentDecode_cons (by decide), hdot, List.singleton_append]
  · have htwo : hexValue? '2' = some 2 := by decide
    exact percentDecode_percent htwo he rest

theorem isDot_of_lower {cs : List Char}
    (h : cs.map Char.toLower = ['.'] ∨ cs.map Char.toLower = ['%', '2', 'e']) : IsDot cs := by
  have hsame : ∀ {c d : Char}, d.toNat < 97 → c.toLower = d → c = d := fun hd hc =>
    (eq_or_of_toLower_eq hc).resolve_right fun hupper => by omega
  rcases h with h | h
  · obtain ⟨c, rest, rfl, hc, hrest⟩ := List.map_eq_cons_iff.1 h
    rw [List.map_eq_nil_iff.1 hrest, hsame (by decide) hc]
    exact .inl rfl
  · obtain ⟨c, rest, rfl, hc, hrest⟩ := List.map_eq_cons_iff.1 h
    obtain ⟨d, rest, rfl, hd, hrest⟩ := List.map_eq_cons_iff.1 hrest
    obtain ⟨e, rest, rfl, he, hrest⟩ := List.map_eq_cons_iff.1 hrest
    rw [List.map_eq_nil_iff.1 hrest, hsame (by decide) hc, hsame (by decide) hd]
    refine .inr ⟨e, rfl, ?_⟩
    rcases eq_or_of_toLower_eq he with rfl | ⟨hsum, -, -⟩
    · decide
    · have hvalue : 'e'.toNat = 101 := rfl
      obtain rfl : e = 'E' := Char.toNat_inj.1 (show e.toNat = 69 by omega)
      decide

theorem toList_toLower (s : String) : s.toLower.toList = s.toList.map Char.toLower :=
  String.toList_map

/-- A segment counts as dots only if it is read as one dot or as two. -/
theorem percentDecode_of_dots {s : String} (h : Url.dots s ≠ none) :
    percentDecode s.toList = [46] ∨ percentDecode s.toList = [46, 46] := by
  have hnil : percentDecode [] = [] := by rw [percentDecode]
  have hone : ∀ t : String, s.toLower = t → t.toList = ['.'] ∨ t.toList = ['%', '2', 'e'] →
      percentDecode s.toList = [46] := by
    rintro t rfl ht
    rw [toList_toLower] at ht
    rw [← List.append_nil s.toList, (isDot_of_lower ht).percentDecode_append, hnil]
  have htwo : ∀ (t : String) (x y : List Char), s.toLower = t → t.toList = x ++ y →
      x = ['.'] ∨ x = ['%', '2', 'e'] → y = ['.'] ∨ y = ['%', '2', 'e'] →
        percentDecode s.toList = [46, 46] := by
    rintro t x y rfl ht hx hy
    rw [toList_toLower] at ht
    obtain ⟨first, second, hs, rfl, rfl⟩ := List.map_eq_append_iff.1 ht
    rw [hs, (isDot_of_lower hx).percentDecode_append, ← List.append_nil second,
      (isDot_of_lower hy).percentDecode_append, hnil]
  unfold Url.dots at h
  simp only at h
  split at h
  · next hdot => exact .inl (hdot.elim (hone _ · (.inl rfl)) (hone _ · (.inr rfl)))
  · split at h
    · next hdots =>
        refine .inr ?_
        rcases hdots with h | h | h | h
        · exact htwo _ ['.'] ['.'] h rfl (.inl rfl) (.inl rfl)
        · exact htwo _ ['.'] ['%', '2', 'e'] h rfl (.inl rfl) (.inr rfl)
        · exact htwo _ ['%', '2', 'e'] ['.'] h rfl (.inr rfl) (.inl rfl)
        · exact htwo _ ['%', '2', 'e'] ['%', '2', 'e'] h rfl (.inr rfl) (.inr rfl)
    · contradiction

/-- The ids that are written as dots are one dot and two. -/
theorem dots_segment_ne_none_iff : Url.dots (segment id) ≠ none ↔ id = "." ∨ id = ".." := by
  constructor
  · intro h
    have hbytes : ∀ t : String, (∀ b ∈ t.toUTF8.toList, b ≠ 43) →
        percentDecode (segment id).toList = t.toUTF8.toList → id = t := by
      intro t hplus ht
      refine Text.toList_toUTF8_inj.1 ?_
      rw [percentDecode_segment] at ht
      rw [← ht]
      refine ((List.map_congr_left fun b hb => ?_).trans (List.map_id _)).symm
      refine if_neg fun h32 => hplus 43 ?_ rfl
      rw [← ht, List.mem_map]
      exact ⟨b, hb, if_pos h32⟩
    rcases percentDecode_of_dots h with hread | hread
    · exact .inl (hbytes "." (by decide +kernel) (hread.trans (by decide +kernel)))
    · exact .inr (hbytes ".." (by decide +kernel) (hread.trans (by decide +kernel)))
  · rintro (rfl | rfl) <;> decide +kernel

end Segments

/-! ## Requests about an id -/

theorem mem_withoutLastSlashes_iff {c : Char} (hc : c ≠ '/') (url : String) :
    c ∈ (Client.withoutLastSlashes url).toList ↔ c ∈ url.toList := by
  have hreverse : c ∈ url.toList ↔ c ∈ url.toList.reverse := List.mem_reverse.symm
  rw [Client.withoutLastSlashes, String.toList_ofList, List.mem_reverse, hreverse]
  conv_rhs =>
    rw [← List.takeWhile_append_dropWhile (p := (decide <| · = '/')) (l := url.toList.reverse)]
  rw [List.mem_append, or_iff_right fun hmem => hc (by simpa using List.mem_takeWhile_imp hmem)]

/-- What a connector is asked about one id. -/
inductive Inquiry where
  | state
  | address
  | refresh
deriving DecidableEq, Repr

namespace Inquiry

def call (ask : Inquiry) (id : String) : Exchange.Call :=
  match ask with
  | state => .negotiationState id
  | address => .address id
  | refresh => .refresh id

def path (ask : Inquiry) (id : String) : String :=
  match ask with
  | state => Connector.negotiationPath id
  | address => Connector.addressPath id
  | refresh => Connector.refreshPath id

def collection : Inquiry → String
  | state => Connector.negotiationsPath
  | address | refresh => Connector.entriesPath

def rest : Inquiry → List String
  | state | address => []
  | refresh => ["refresh"]

def tail (ask : Inquiry) (id : String) : List Char :=
  (segment id).toList ++ ask.rest.flatMap fun s => '/' :: s.toList

variable (ask : Inquiry) (id : String)

theorem toList_path : (ask.path id).toList = ask.collection.toList ++ '/' :: ask.tail id := by
  have hslash : "/".toList = ['/'] := rfl
  have hrefresh : "/refresh".toList = '/' :: "refresh".toList := rfl
  cases ask <;>
    simp [path, Connector.negotiationPath, Connector.refreshPath, Connector.addressPath, collection,
      tail, rest, hslash, hrefresh]

/-- The id is one part of what is behind the collection. -/
theorem split_tail : (Text.splitAtEach '/' (ask.tail id)).map (Url.escaped Url.isPathEscaped) =
    segment id :: ask.rest := by
  have hslash : '/' ∉ (segment id).toList := not_mem_encode (by decide) id
  have hlast : Url.escaped Url.isPathEscaped "refresh".toList = "refresh" := by decide
  cases ask with
  | state | address =>
      rw [tail, rest, List.flatMap_nil, List.append_nil, Text.splitAtEach_of_not_mem hslash,
        List.map_singleton, escaped_segment]
  | refresh =>
      rw [tail, rest, List.flatMap_singleton, Text.splitAtEach_append_cons,
        Text.splitAtEach_of_not_mem hslash, Text.splitAtEach_of_not_mem (by decide),
        List.map_append, List.map_singleton, List.map_singleton, escaped_segment, hlast]
      rfl

theorem kept_tail : ∀ c ∈ ask.tail id, Url.IsKept c ∧ c ≠ '?' ∧ c ≠ '\\' := by
  have hsegment : ∀ c ∈ (segment id).toList, Url.IsKept c ∧ c ≠ '?' ∧ c ≠ '\\' := by
    intro c hc
    obtain ⟨hlow, -, hnot⟩ := isWritten_encode hc
    have hother : ∀ d ∈ "#&=?/:\\".toList, c ≠ d := fun d hd h => hnot (h ▸ hd)
    exact ⟨⟨hlow, hother ':' (by decide), hother '#' (by decide)⟩, hother '?' (by decide),
      hother '\\' (by decide)⟩
  have hrest : (ask.rest.flatMap fun s => '/' :: s.toList).all
      (fun c => Url.IsKept c ∧ c ≠ '?' ∧ c ≠ '\\') = true := by
    cases ask <;> decide
  exact fun c hc => (List.mem_append.1 hc).elim (hsegment c) fun hc =>
    of_decide_eq_true (List.all_eq_true.1 hrest c hc)

theorem kept_collection : ∀ c ∈ ask.collection.toList, Url.IsKept c ∧ c ≠ '?' := by
  have hall : ask.collection.toList.all (fun c => Url.IsKept c ∧ c ≠ '?') = true := by
    cases ask <;> decide
  exact fun c hc => of_decide_eq_true (List.all_eq_true.1 hall c hc)

theorem dots_rest : ∀ s ∈ ask.rest, Url.dots s = none := by
  cases ask <;> decide +kernel

theorem isBelow_path : Client.IsBelow (ask.path id) := by
  refine ⟨?_, fun c hc => ?_⟩
  · rw [toList_path]
    cases ask with
    | state => exact ⟨'v', _, rfl, by decide, by decide, by simp⟩
    | address | refresh => exact ⟨'e', _, rfl, by decide, by decide, by simp⟩
  · rw [toList_path, List.mem_append] at hc
    rcases hc with hc | hc
    · exact (ask.kept_collection c hc).1
    · have hslash : Url.IsKept '/' := by decide
      exact (List.mem_cons.1 hc).elim (· ▸ hslash) fun hc => (ask.kept_tail id c hc).1

/-- The id stands where it is asked for, and is read back there, just if there is no space in it
and it is not all dots. -/
theorem exists_segment_iff (first : List String) :
    (∃ s, Url.resolve [] (first ++ segment id :: ask.rest) =
        (first.foldl Url.pass []).reverse ++ s :: ask.rest ∧
      percentDecode s.toList = id.toUTF8.toList) ↔
    ' ' ∉ id.toList ∧ id ≠ "." ∧ id ≠ ".." := by
  rw [Url.resolve_append]
  generalize first.foldl Url.pass [] = passed
  by_cases hdots : Url.dots (segment id) = none
  · have hplain : id ≠ "." ∧ id ≠ ".." := not_or.1 fun h => dots_segment_ne_none_iff.2 h hdots
    rw [and_iff_left hplain, ← percentDecode_segment_eq_iff, Url.resolve_cons_of_none hdots,
      Url.resolve_of_none ask.dots_rest, List.reverse_cons, List.append_assoc,
      List.singleton_append]
    constructor
    · rintro ⟨s, hs, hread⟩
      rwa [(List.cons.inj (List.append_cancel_left hs)).1]
    · exact fun hread => ⟨segment id, rfl, hread⟩
  · have hid := dots_segment_ne_none_iff.1 hdots
    refine iff_of_false ?_ fun h => hid.elim h.2.1 h.2.2
    rintro ⟨s, hs, hread⟩
    cases ask with
    | state | address =>
        rw [rest, Url.resolve_dots hdots] at hs
        obtain rfl : "" = s := List.singleton_inj.1 (List.append_inj' hs rfl).2
        have hempty : percentDecode "".toList = "".toUTF8.toList := by
          rw [String.toList_empty, percentDecode]
          decide +kernel
        obtain rfl : "" = id := Text.toList_toUTF8_inj.1 (hempty.symm.trans hread)
        exact absurd hid (by decide)
    | refresh =>
        -- The dots are gone, and with them a segment.
        rw [rest, Url.resolve_dots_cons (dots_rest refresh _ (List.mem_singleton.2 rfl))] at hs
        have hlength := congrArg List.length hs
        have hle := Url.length_pass_le hdots passed
        simp only [List.length_append, List.length_reverse, List.length_cons, List.length_nil]
          at hlength
        omega

/-- The segments of what is asked for, as long as the base
url has neither a query nor a fragment. -/
theorem exists_segments (c : Client) (ask : Inquiry) : ∃ first : List String, ∀ id u,
    Url.parse (c.join (ask.path id)) = .ok u →
      u.segments = if '?' ∈ c.baseUrl.toList ∨ '#' ∈ c.baseUrl.toList then first
        else Url.resolve [] (first ++ segment id :: ask.rest) := by
  obtain ⟨d, path, hcollection, hd⟩ : ∃ d path, ask.collection.toList = d :: path ∧
      d ≠ '/' ∧ d ≠ '\\' := by
    cases ask with
    | state => exact ⟨'v', _, rfl, by decide⟩
    | address | refresh => exact ⟨'e', _, rfl, by decide⟩
  have hpath : ∀ e ∈ d :: path, Url.IsKept e ∧ e ≠ '?' := hcollection ▸ ask.kept_collection
  obtain ⟨first, hfirst⟩ :=
    Url.exists_segments hd hpath (Client.withoutLastSlashes c.baseUrl).toList
  refine ⟨first, fun id u hu => ?_⟩
  have hjoin : c.join (ask.path id) = String.ofList ((Client.withoutLastSlashes c.baseUrl).toList ++
      '/' :: d :: (path ++ '/' :: ask.tail id)) := by
    rw [← String.ofList_toList (s := c.join (ask.path id)), (ask.isBelow_path id).toList_join,
      toList_path, hcollection, List.cons_append]
  rw [hfirst (ask.tail id) (ask.kept_tail id) u (hjoin ▸ hu), split_tail]
  exact if_congr (or_congr (mem_withoutLastSlashes_iff (by decide) _)
    (mem_withoutLastSlashes_iff (by decide) _)) rfl rfl

/-- A connector is asked once, at the url of the path. -/
theorem asksOnce (p : Parties) (ask : Inquiry) {id url : String}
    (hurl : p.connector.url (ask.path id) = .ok url) :
    (p.handle (ask.call id)).AsksOnce (Call.GoesTo url) := by
  cases ask with
  | state =>
      refine (Client.asksOnce_requestJson hurl .get none .free).bind fun answer => ?_
      rcases answer with e | ⟨url, v⟩
      · exact Program.asksOnly_pure _
      · cases hstate : Connector.state? v <;> simp only [hstate] <;> exact Program.asksOnly_pure _
  | address => exact Client.asksOnce_requestOptional hurl .get EdrAddress.codec
  | refresh =>
      exact (Client.asksOnce_requestJson hurl .post none EdrAddress.codec).bind fun found =>
        Program.asksOnly_pure _

/-- Whatever is asked about an id, one request is made, and its url has the id as one segment of
the path, at the same place for all ids, that is read as the id: this is so just if the base url
has neither a query nor a fragment, there is no space in the id and it is not one dot or two. -/
theorem id_survives_iff (p : Parties) (ask : Inquiry) : ∃ before : List String, ∀ id url,
    p.connector.url (ask.path id) = .ok url →
      (p.handle (ask.call id)).AsksOnce (Call.GoesTo url) ∧ ∃ u, Url.parse url = .ok u ∧
        ((∃ s, u.segments = before ++ s :: ask.rest ∧ percentDecode s.toList = id.toUTF8.toList) ↔
          '?' ∉ p.connector.baseUrl.toList ∧ '#' ∉ p.connector.baseUrl.toList ∧
            ' ' ∉ id.toList ∧ id ≠ "." ∧ id ≠ "..") := by
  obtain ⟨first, hfirst⟩ := exists_segments p.connector ask
  by_cases hbase : '?' ∈ p.connector.baseUrl.toList ∨ '#' ∈ p.connector.baseUrl.toList
  · refine ⟨first, fun id url hurl => ⟨asksOnce p ask hurl, ?_⟩⟩
    obtain ⟨rfl, u, hu⟩ := Client.url_eq_ok_iff.1 hurl
    refine ⟨u, hu, iff_of_false ?_ fun h => hbase.elim h.1 h.2.1⟩
    -- The path belongs to the query or to the fragment.
    rintro ⟨s, hs, -⟩
    have hlength := congrArg List.length ((hfirst id u hu).symm.trans hs)
    rw [if_pos hbase, List.length_append, List.length_cons] at hlength
    omega
  · refine ⟨(first.foldl Url.pass []).reverse, fun id url hurl => ⟨asksOnce p ask hurl, ?_⟩⟩
    obtain ⟨rfl, u, hu⟩ := Client.url_eq_ok_iff.1 hurl
    refine ⟨u, hu, ?_⟩
    obtain ⟨hquery, hhash⟩ := not_or.1 hbase
    rw [hfirst id u hu, if_neg hbase, exists_segment_iff, and_iff_right hquery, and_iff_right hhash]

def rootParties : Parties :=
  ⟨⟨"http://testhost", [], none⟩, .free, none, none, usualRegistryRoot, 10⟩

theorem slashes_survive :
    rootParties.connector.url (refresh.path "a/b+c") =
      .ok "http://testhost/edrs/a%2Fb%2Bc/refresh" ∧
    (rootParties.handle (.refresh "a/b+c")).AsksOnce
      (Call.GoesTo "http://testhost/edrs/a%2Fb%2Bc/refresh") ∧
    ∃ before u s, Url.parse "http://testhost/edrs/a%2Fb%2Bc/refresh" = .ok u ∧
      u.segments = before ++ [s, "refresh"] ∧ percentDecode s.toList = "a/b+c".toUTF8.toList := by
  have hurl : rootParties.connector.url (refresh.path "a/b+c") =
      .ok "http://testhost/edrs/a%2Fb%2Bc/refresh" := by decide +kernel
  obtain ⟨before, hids⟩ := id_survives_iff rootParties refresh
  obtain ⟨hasked, u, hu, hiff⟩ := hids "a/b+c" _ hurl
  obtain ⟨s, hs, hread⟩ := hiff.2 (by decide)
  exact ⟨hurl, hasked, before, u, s, hu, hs, hread⟩

/-- A space is asked for as a plus sign, and the id of two dots is not asked for at all: no
segment is read as the id. -/
theorem ids_lost :
    (rootParties.connector.url (state.path "a b") =
        .ok "http://testhost/v2/contractnegotiations/a+b" ∧
      ∃ u, Url.parse "http://testhost/v2/contractnegotiations/a+b" = .ok u ∧
        ∀ s ∈ u.segments, percentDecode s.toList ≠ "a b".toUTF8.toList) ∧
    (rootParties.connector.url (refresh.path "..") = .ok "http://testhost/edrs/../refresh" ∧
      ∃ u, Url.parse "http://testhost/edrs/../refresh" = .ok u ∧
        ∀ s ∈ u.segments, percentDecode s.toList ≠ "..".toUTF8.toList) := by
  have hplain : ∀ s id : String, '%' ∉ s.toList → s ≠ id →
      percentDecode s.toList ≠ id.toUTF8.toList := by
    intro s id hs hne
    rw [Text.percentDecode_toList hs]
    exact mt Text.toList_toUTF8_inj.1 hne
  refine ⟨⟨by decide +kernel,
      ⟨"http", "testhost", none, ["v2", "contractnegotiations", "a+b"], none⟩,
      by decide +kernel, fun s hs => hplain s _ ?_ ?_⟩,
    by decide +kernel, ⟨"http", "testhost", none, ["refresh"], none⟩, by decide +kernel,
      fun s hs => hplain s _ ?_ ?_⟩
  all_goals
    revert s hs
    decide

end Inquiry

end Dataspace.Http
