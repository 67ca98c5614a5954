import Dataspace.Proofs.Http.Reading
import Dataspace.Proofs.Http.Url
/-!
Lists of a registry that has a page for each cursor.  Main statement: `listing_whole_or_failed`, all
pages of the chain are asked for once, and they make the list, unless one of them cannot be had.
-/

namespace Dataspace.Http.Registry

variable {M : Memory} [DecidableEq M.Key] {α : Type} {S : Surroundings interface} {c : Client}
  {codec : Codec α} {path : String}

/-! ## What a page says -/

/-- A reply has a body that is a value; of members with one name the last counts. -/
def Brings (reply : Except Silence Reply) (v : Json) : Prop :=
  ∃ status text written, reply = .ok ⟨status, .ok text⟩ ∧ 200 ≤ status ∧ status < 300 ∧
    Json.read? text = some written ∧ v = written.settle

/-- The list that a page is, or wraps.  An object without a result wraps an empty list. -/
inductive Carries : Json → List Json → Prop
  | bare (vs : List Json) : Carries (.list vs) vs
  | wrapped {members : List (String × Json)} {vs : List Json}
      (h : (Json.object members).get? "result" = some (.list vs)) : Carries (.object members) vs
  | missing {members : List (String × Json)} (h : (Json.object members).get? "result" = none) :
      Carries (.object members) []

/-- All that a page carries can be read as these items. -/
def Holds (codec : Codec α) (v : Json) (items : List α) : Prop :=
  ∃ vs, Carries v vs ∧ List.Forall₂ (fun v x => codec.decode v = .ok x) vs items

/-- The cursor in the metadata of a page, unless it is empty. -/
def Names (v : Json) (cursor : String) : Prop :=
  cursor ≠ "" ∧ ∃ metadata, v.get? "paging_metadata" = some metadata ∧
    metadata.get? "cursor" = some (.text cursor)

theorem decodeItems_eq_ok_iff {vs : List Json} {items : List α} :
    Codec.decodeItems codec vs = .ok items ↔
      List.Forall₂ (fun v x => codec.decode v = .ok x) vs items := by
  induction vs generalizing items with
  | nil => simp [Codec.decodeItems, eq_comm]
  | cons v vs ih =>
      cases hv : codec.decode v with
      | error e => simp [Codec.decodeItems, List.forall₂_cons_left_iff, hv]
      | ok x =>
          simp only [Codec.decodeItems, hv, List.forall₂_cons_left_iff, ← ih]
          cases Codec.decodeItems codec vs <;> simp [Except.map, eq_comm]

theorem carries_iff {v : Json} {vs : List Json} : Carries v vs ↔ (pageParts v).1 = .list vs := by
  constructor
  · rintro (_ | h | h)
    · rfl
    · simp [pageParts, h]
    · simp [pageParts, h]
  · intro h
    cases v with
    | list vs' =>
        obtain rfl : vs' = vs := by simpa [pageParts] using h
        exact .bare vs'
    | object members =>
        cases hresult : (Json.object members).get? "result" with
        | none =>
            obtain rfl : [] = vs := by simpa [pageParts, hresult] using h
            exact .missing hresult
        | some w =>
            obtain rfl : w = .list vs := by simpa [pageParts, hresult] using h
            exact .wrapped hresult
    | null | bool _ | int _ | real _ | text _ => cases h

theorem decode_eq_ok_iff {v : Json} {items : List α} :
    codec.list.decode (pageParts v).1 = .ok items ↔ Holds codec v items := by
  simp only [Holds, carries_iff, ← decodeItems_eq_ok_iff]
  cases (pageParts v).1 with
  | list vs => simp [Codec.list]
  | object _ | null | bool _ | int _ | real _ | text _ => simp [Codec.list]

theorem asText?_eq_some_iff {v : Json} {s : String} : v.asText? = some s ↔ v = .text s := by
  cases v <;> simp [Json.asText?]

theorem pageParts_cursor_iff {v : Json} {cursor : String} :
    (pageParts v).2 = some cursor ↔ Names v cursor := by
  cases v with
  | object members =>
      simp only [pageParts, Names, Option.filter_eq_some_iff, Option.bind_eq_bind,
        Option.bind_eq_some_iff, asText?_eq_some_iff]
      constructor
      · rintro ⟨⟨_, ⟨metadata, hmetadata, hcursor⟩, rfl⟩, hempty⟩
        exact ⟨by simpa using hempty, metadata, hmetadata, hcursor⟩
      · rintro ⟨hempty, metadata, hmetadata, hcursor⟩
        exact ⟨⟨_, ⟨metadata, hmetadata, hcursor⟩, rfl⟩, by simpa using hempty⟩
  | list _ | null | bool _ | int _ | real _ | text _ => simp [pageParts, Names, Json.get?]

theorem bodyOf_eq_ok_iff {r : Request} {reply : Except Silence Reply} {text : String} :
    bodyOf r reply = .ok text ↔
      ∃ status, reply = .ok ⟨status, .ok text⟩ ∧ 200 ≤ status ∧ status < 300 := by
  rcases reply with silence | ⟨status, body⟩
  · simp [bodyOf]
  · by_cases hstatus : 200 ≤ status ∧ status < 300
    · rcases body with silence | text' <;> simp [bodyOf, hstatus, Except.mapError]
    · simp only [bodyOf, if_neg hstatus, reduceCtorEq, false_iff]
      rintro ⟨status', h, hsuccess⟩
      cases h
      exact hstatus hsuccess

theorem decodeText_free_eq_ok_iff {url text : String} {v : Json} :
    Client.decodeText .free url text = .ok v ↔
      ∃ written, Json.read? text = some written ∧ v = written.settle := by
  unfold Client.decodeText
  cases Json.read? text with
  | none => simp
  | some written => simp [Codec.free, eq_comm]

section Results

variable {ε ε' β : Type}

theorem bind_eq_ok_iff {x : Except ε α} {f : α → Except ε β} {y : β} :
    x.bind f = .ok y ↔ ∃ a, x = .ok a ∧ f a = .ok y := by
  cases x <;> simp [Except.bind]

theorem map_mapError_eq_ok_iff {x : Except ε α} {f : α → β} {g : ε → ε'} {y : β} :
    (x.mapError g).map f = .ok y ↔ ∃ a, x = .ok a ∧ f a = y := by
  cases x <;> simp [Except.map, Except.mapError]

end Results

theorem pageOf_eq_ok_iff {r : Request} {reply : Except Silence Reply} {items : List α}
    {next : Option String} : pageOf codec r reply = .ok (items, next) ↔
      ∃ v, Brings reply v ∧ Holds codec v items ∧ (pageParts v).2 = next := by
  simp only [pageOf, bind_eq_ok_iff, map_mapError_eq_ok_iff, bodyOf_eq_ok_iff,
    decodeText_free_eq_ok_iff, decode_eq_ok_iff, Prod.mk.injEq]
  constructor
  · rintro ⟨text, ⟨status, rfl, hleast, hmost⟩, v, ⟨written, hwritten, rfl⟩, _, hitems, rfl, hnext⟩
    exact ⟨_, ⟨status, text, written, rfl, hleast, hmost, hwritten, rfl⟩, hitems, hnext⟩
  · rintro ⟨v, ⟨status, text, written, rfl, hleast, hmost, hwritten, rfl⟩, hitems, hnext⟩
    exact ⟨text, ⟨status, rfl, hleast, hmost⟩, _, ⟨written, hwritten, rfl⟩, items, hitems, rfl,
      hnext⟩

theorem Brings.unique {reply : Except Silence Reply} {v v' : Json} (h : Brings reply v)
    (h' : Brings reply v') : v' = v := by
  obtain ⟨status, text, written, rfl, -, -, hwritten, rfl⟩ := h
  obtain ⟨status', text', written', hreply, -, -, hwritten', rfl⟩ := h'
  obtain ⟨rfl, rfl⟩ : status = status' ∧ text = text' := by simpa using hreply
  rw [Option.some.inj (hwritten.symm.trans hwritten')]

theorem Names.unique {v : Json} {cursor cursor' : String} (h : Names v cursor)
    (h' : Names v cursor') : cursor' = cursor :=
  Option.some.inj ((pageParts_cursor_iff.2 h').symm.trans (pageParts_cursor_iff.2 h))

/-! ## The chain of cursors -/

/-- The cursors of the pages from a cursor on, up to the first page that names no further one.  A
reply that brings no page names none. -/
inductive Chain (reply : Option String → Except Silence Reply) :
    Option String → List (Option String) → Prop
  | last {cursor} (h : ∀ v next, Brings (reply cursor) v → ¬ Names v next) :
      Chain reply cursor [cursor]
  | next {cursor v next cursors} (hbrings : Brings (reply cursor) v) (hnames : Names v next)
      (h : Chain reply (some next) cursors) : Chain reply cursor (cursor :: cursors)

namespace Chain

variable {reply : Option String → Except Silence Reply} {cursor cursor' : Option String}
  {cursors cursors' : List (Option String)}

theorem unique (h : Chain reply cursor cursors) (h' : Chain reply cursor cursors') :
    cursors' = cursors := by
  induction h generalizing cursors' with
  | last hlast =>
      cases h' with
      | last => rfl
      | next hbrings hnames => exact (hlast _ _ hbrings hnames).elim
  | next hbrings hnames _ ih =>
      cases h' with
      | last hlast => exact (hlast _ _ hbrings hnames).elim
      | next hbrings' hnames' h' =>
          obtain rfl := hbrings.unique hbrings'
          obtain rfl := hnames.unique hnames'
          rw [ih h']

/-- Each cursor of a chain has a chain of its own, which is no longer. -/
theorem exists_of_mem (h : Chain reply cursor cursors) (hmem : cursor' ∈ cursors) :
    ∃ cursors', Chain reply cursor' cursors' ∧ cursors'.length ≤ cursors.length := by
  induction h with
  | last hlast =>
      obtain rfl := List.mem_singleton.1 hmem
      exact ⟨_, .last hlast, le_rfl⟩
  | next hbrings hnames h ih =>
      rcases List.mem_cons.1 hmem with rfl | hmem
      · exact ⟨_, .next hbrings hnames h, le_rfl⟩
      · obtain ⟨cursors', h', hlength⟩ := ih hmem
        exact ⟨cursors', h', hlength.trans (Nat.le_succ _)⟩

/-- A chain that ends comes back to no cursor. -/
theorem nodup (h : Chain reply cursor cursors) : cursors.Nodup := by
  induction h with
  | last => exact List.nodup_singleton _
  | next hbrings hnames h ih =>
      refine List.nodup_cons.2 ⟨fun hmem => ?_, ih⟩
      obtain ⟨cursors', h', hlength⟩ := h.exists_of_mem hmem
      rw [(Chain.next hbrings hnames h).unique h'] at hlength
      exact Nat.lt_irrefl _ hlength

theorem head_mem (h : Chain reply cursor cursors) : cursor ∈ cursors := by
  cases h <;> exact List.mem_cons_self

end Chain

/-! ## Requests -/

open Text.Form (place pathPairs)

/-- A request for the page of a cursor: it leads where the path leads, and behind the pairs of
the query of the path it names the cursor, if there is one. -/
structure IsRequestFor (c : Client) (path : String) (cursor : Option String) (r : Request) :
    Prop where
  method : r.method = .get
  headers : r.headers = c.headers
  body : r.body = none
  timeout : r.timeoutMillis = c.timeoutMillis
  url : ∃ p, r.url = c.join p ∧ place p = place path ∧ pathPairs p =
    pathPairs path ++ cursor.toList.map fun k => ("cursor".toUTF8.toList, k.toUTF8.toList)

/-- The path of a page names its cursor behind the pairs of the query that it has already. -/
theorem pathPairs_pagePath (path : String) (cursor : Option String) :
    pathPairs (pagePath path cursor) =
      pathPairs path ++ cursor.toList.map fun k => ("cursor".toUTF8.toList, k.toUTF8.toList) := by
  cases cursor with
  | none => exact (List.append_nil _).symm
  | some k =>
      rw [pagePath, Text.Form.pathPairs_withQuery, Text.Form.queryPairs_encodePairs]
      rfl

theorem isRequestFor_getting (c : Client) (path : String) (cursor : Option String) :
    IsRequestFor c path cursor (c.getting (c.join (pagePath path cursor))) where
  method := rfl
  headers := rfl
  body := rfl
  timeout := rfl
  url := by
    refine ⟨pagePath path cursor, rfl, ?_, pathPairs_pagePath path cursor⟩
    cases cursor with
    | none => rfl
    | some k => exact Text.Form.place_withQuery ..

/-! ## Paths of lists -/

open Http.Url (IsKept)

/-- The path of the shells with some identifiers, or of the submodels of a shell. -/
inductive IsListPath : String → Prop
  | lookup (ids : List SpecificAssetId) : IsListPath (lookupPath ids)
  | submodels (shellId : String) : IsListPath (submodelsPath shellId)

theorem isKept_encodePairs (pairs : List (String × String)) :
    ∀ d ∈ (Text.Form.encodePairs pairs).toList, IsKept d := by
  intro d hd
  rcases Text.Form.isWritten_or_of_mem_encodePairs hd with ⟨hleast, -, hother⟩ | rfl | rfl
  · refine ⟨hleast, ?_, ?_⟩ <;> rintro rfl <;> exact hother (by decide)
  · decide
  · decide

theorem isKept_encodeId (id : String) : ∀ d ∈ (encodeId id).toList, IsKept d := by
  have hdigit : ∀ n, IsKept (Text.Base64url.digit n) := by
    intro n
    by_cases hn : n < 62
    · have hall : ∀ n < 62, IsKept (Text.Base64url.digit n) := by decide
      exact hall n hn
    · unfold Text.Base64url.digit
      rw [if_neg (by omega), if_neg (by omega), if_neg hn]
      split <;> decide
  have hbytes : ∀ bytes, ∀ d ∈ Text.Base64url.encodeBytes bytes, IsKept d := by
    intro bytes
    induction bytes using Text.Base64url.encodeBytes.induct with
    | case1 => exact fun d hd => (List.not_mem_nil hd).elim
    | case2 a | case3 a b => simp [Text.Base64url.encodeBytes, hdigit]
    | case4 a b c rest ih =>
        simp only [Text.Base64url.encodeBytes, List.forall_mem_cons]
        exact ⟨hdigit _, hdigit _, hdigit _, hdigit _, ih⟩
  rw [encodeId, Text.Base64url.encode, String.toList_ofList]
  exact hbytes _

theorem IsListPath.isBelow (h : IsListPath path) : Client.IsBelow path := by
  cases h with
  | lookup ids =>
      refine Client.IsBelow.withQuery ⟨⟨'l', "ookup/shells".toList, rfl, ?_⟩, ?_⟩
        (isKept_encodePairs _)
      · decide
      · exact Url.isKept_of_all (by decide)
  | submodels id =>
      have hpath : (submodelsPath id).toList = 's' :: ("hell-descriptors/".toList ++
          (encodeId id).toList ++ "/submodel-descriptors".toList) := by
        simp [submodelsPath, shellsPath]
      refine ⟨⟨_, _, hpath, by decide, by decide, ?_⟩, ?_⟩
      · exact List.mem_append_left _ (List.mem_append_left _ (by decide))
      · rw [hpath]
        intro d hd
        simp only [List.mem_cons, List.mem_append] at hd
        rcases hd with rfl | (hd | hd) | hd
        · decide
        · exact Url.isKept_of_all (by decide) d hd
        · exact isKept_encodeId id d hd
        · exact Url.isKept_of_all (by decide) d hd

/-- A client that can ask for the first page of a list can ask for each of them. -/
theorem url_pagePath (hpath : IsListPath path) {url : String} (hurl : c.url path = .ok url)
    (cursor : Option String) :
    c.url (pagePath path cursor) = .ok (c.join (pagePath path cursor)) := by
  cases cursor with
  | none => rw [pagePath, hurl, (Client.url_eq_ok_iff.1 hurl).1]
  | some k => exact Client.url_withQuery hpath.isBelow (isKept_encodePairs _) hurl

theorem IsListPath.exists_place (h : IsListPath path) :
    ∃ d rest, place path = d :: rest ∧ d ≠ '/' ∧ d ≠ 'h' := by
  cases h with
  | lookup ids =>
      refine ⟨'l', "ookup/shells".toList, ?_, by decide, by decide⟩
      rw [lookupPath, Text.Form.place_withQuery]
      rfl
  | submodels id =>
      have hpath : (submodelsPath id).toList = 's' :: ("hell-descriptors/".toList ++
          (encodeId id).toList ++ "/submodel-descriptors".toList) := by
        simp [submodelsPath, shellsPath]
      rw [place, hpath, Text.cutAtFirst, if_neg (by decide)]
      cases Text.cutAtFirst '?' ("hell-descriptors/".toList ++ (encodeId id).toList ++
        "/submodel-descriptors".toList) <;> exact ⟨'s', _, rfl, by decide, by decide⟩

/-- What leads where a list is goes behind the base url. -/
theorem IsListPath.toList_join (h : IsListPath path) {p : String} (hp : place p = place path)
    (c : Client) :
    (c.join p).toList = (Client.withoutLastSlashes c.baseUrl).toList ++ '/' :: p.toList := by
  obtain ⟨d, rest, hplace, hslash, hd⟩ := h.exists_place
  obtain ⟨rest', hchars⟩ := Text.Form.exists_of_place (hp.trans hplace)
  refine Client.toList_join ?_ hchars hslash c
  simp [Client.isAbsolute, hchars, Ne.symm hd]

theorem IsListPath.pathPairs_join (h : IsListPath path) {p : String} (hp : place p = place path)
    {c : Client} (hbase : '?' ∉ (Client.withoutLastSlashes c.baseUrl).toList) :
    pathPairs (c.join p) = pathPairs p := by
  have hmark : '?' ∉ (Client.withoutLastSlashes c.baseUrl).toList ++ ['/'] := by
    simpa using hbase
  have hcut := Text.cutAtFirst_append_of_not_mem hmark p.toList
  rw [List.append_assoc, List.singleton_append, ← h.toList_join hp c] at hcut
  rw [pathPairs, pathPairs, hcut]
  cases Text.cutAtFirst '?' p.toList <;> rfl

/-! ## Reading a chain -/

/-- As long as the surroundings are within these states, they have a reply to every request for
the page of a cursor. -/
structure Serves (c : Client) (path : String) (reply : Option String → Except Silence Reply)
    (Within : Shared S → Prop) : Prop where
  replies : ∀ s cursor r, Within s → IsRequestFor c path cursor r → Replies s r (reply cursor)
  stays : ∀ s cursor r, Within s → IsRequestFor c path cursor r → Within (afterwards s r)

def Has (codec : Codec α) (reply : Option String → Except Silence Reply) (cursor : Option String)
    (items : List α) : Prop :=
  ∃ v, Brings (reply cursor) v ∧ Holds codec v items

variable {reply : Option String → Except Silence Reply} {Within : Shared S → Prop}
  {cursor : Option String} {cursors : List (Option String)} {requests : List Request}
  {pages : List (List α)} {cause : Option RemoteError}

theorem has_unique : Relator.RightUnique (Has codec reply) := by
  rintro cursor items items' ⟨v, hbrings, hholds⟩ ⟨v', hbrings', hholds'⟩
  obtain rfl := hbrings.unique hbrings'
  exact Except.ok.inj ((decode_eq_ok_iff.2 hholds).symm.trans (decode_eq_ok_iff.2 hholds'))

theorem exists_has_of_mem (h : List.Forall₂ (Has codec reply) cursors pages)
    (hmem : cursor ∈ cursors) : ∃ items, Has codec reply cursor items := by
  induction h with
  | nil => exact (List.not_mem_nil hmem).elim
  | cons hhas _ ih =>
      rcases List.mem_cons.1 hmem with rfl | hmem
      · exact ⟨_, hhas⟩
      · exact ih hmem

/-- What is read of the pages of these cursors: all of them,
or those up to one that cannot be had. -/
inductive Read (c : Client) (codec : Codec α) (path : String)
    (reply : Option String → Except Silence Reply) (cursors : List (Option String)) :
    List Request → List (List α) → Option RemoteError → Prop
  | whole {requests : List Request} {pages : List (List α)}
      (hrequests : List.Forall₂ (IsRequestFor c path) cursors requests)
      (hpages : List.Forall₂ (Has codec reply) cursors pages) :
      Read c codec path reply cursors requests pages none
  | part {before rest : List (Option String)} {cursor : Option String} {requests : List Request}
      {pages : List (List α)} {e : RemoteError} (hcursors : cursors = before ++ cursor :: rest)
      (hrequests : List.Forall₂ (IsRequestFor c path) (before ++ [cursor]) requests)
      (hbroken : ∀ items, ¬ Has codec reply cursor items) :
      Read c codec path reply cursors requests pages (some e)

theorem Read.first {r : Request} (hr : IsRequestFor c path cursor r)
    (hbroken : ∀ items, ¬ Has codec reply cursor items) (rest : List (Option String))
    (e : RemoteError) : Read c codec path reply (cursor :: rest) [r] pages (some e) :=
  .part (List.nil_append _).symm (.cons hr .nil) hbroken

theorem Read.cons {r : Request} {items : List α} (hr : IsRequestFor c path cursor r)
    (hitems : Has codec reply cursor items)
    (h : Read c codec path reply cursors requests pages cause) :
    Read c codec path reply (cursor :: cursors) (r :: requests) (items :: pages) cause := by
  cases h with
  | whole hrequests hpages => exact .whole (.cons hr hrequests) (.cons hitems hpages)
  | @part before rest broken _ _ _ hcursors hrequests hbroken =>
      have hmore : cursor :: cursors = cursor :: before ++ broken :: rest := by
        rw [hcursors, List.cons_append]
      exact .part hmore (.cons hr hrequests) hbroken

theorem Read.length_le (h : Read c codec path reply cursors requests pages cause) :
    requests.length ≤ cursors.length := by
  cases h with
  | whole hrequests => exact hrequests.length_eq.ge
  | part hcursors hrequests =>
      rw [← hrequests.length_eq, hcursors]
      simp

theorem not_has_of_pageOf {r : Request} {e : RemoteError}
    (h : pageOf codec r (reply cursor) = .error e) (items : List α) :
    ¬ Has codec reply cursor items := by
  rintro ⟨v, hbrings, hholds⟩
  rw [pageOf_eq_ok_iff.2 ⟨v, hbrings, hholds, rfl⟩] at h
  cases h

/-- The pages of a chain are read one after the other. -/
theorem Chain.exists_reading (h : Chain reply cursor cursors) (codec : Codec α)
    (hpath : IsListPath path) {url : String} (hurl : c.url path = .ok url)
    (hserves : Serves c path reply Within) {s : Shared S} (hs : Within s) :
    ∃ requests pages cause s', Reading c codec path cursor s requests pages cause s' ∧
      Read c codec path reply cursors requests pages cause := by
  have hnodup := h.nodup
  induction h generalizing s with
  | @last cursor hlast =>
      have hr := isRequestFor_getting c path cursor
      have hreply := hserves.replies s cursor _ hs hr
      have hurl := url_pagePath hpath hurl cursor
      cases hpage : pageOf codec (c.getting (c.join (pagePath path cursor))) (reply cursor) with
      | error e =>
          exact ⟨_, _, _, _, .broken hurl hreply hpage, .first hr (not_has_of_pageOf hpage) [] e⟩
      | ok found =>
          obtain ⟨items, next⟩ := found
          obtain ⟨v, hbrings, hholds, hnext⟩ := pageOf_eq_ok_iff.1 hpage
          have hnone : next = none := by
            cases next with
            | none => rfl
            | some k => exact (hlast v k hbrings (pageParts_cursor_iff.1 hnext)).elim
          exact ⟨_, _, _, _, .last hurl hreply hpage (.inl hnone), .whole (.cons hr .nil)
            (.cons ⟨v, hbrings, hholds⟩ .nil)⟩
  | @next cursor v next cursors hbrings hnames h ih =>
      have hr := isRequestFor_getting c path cursor
      have hreply := hserves.replies s cursor _ hs hr
      have hurl' := url_pagePath hpath hurl cursor
      cases hpage : pageOf codec (c.getting (c.join (pagePath path cursor))) (reply cursor) with
      | error e =>
          exact ⟨_, _, _, _, .broken hurl' hreply hpage, .first hr (not_has_of_pageOf hpage) _ e⟩
      | ok found =>
          obtain ⟨items, named⟩ := found
          obtain ⟨v', hbrings', hholds, rfl⟩ := pageOf_eq_ok_iff.1 hpage
          obtain rfl := hbrings.unique hbrings'
          rw [pageParts_cursor_iff.2 hnames] at hpage
          -- The page does not name its own cursor, for the chain ends.
          have hother : cursor ≠ some next := by
            rintro rfl
            exact (List.nodup_cons.1 hnodup).1 h.head_mem
          obtain ⟨requests, pages, cause, s', hreading, hread⟩ :=
            ih (hserves.stays s cursor _ hs hr) hnodup.of_cons
          exact ⟨_, _, _, _, .next hurl' hreply hpage hother hreading,
            hread.cons hr ⟨_, hbrings, hholds⟩⟩

/-- A registry that has a page for each cursor, and whose chain of cursors
ends, is asked for each page of the chain once, in order.  If all pages can
be had, their items in this order are the list.  If one of them is answered
with an error, or has an item that cannot be read, there is no list. -/
theorem listing_whole_or_failed (hanswers : S.Answers) (hpath : IsListPath path) {url : String}
    (hurl : c.url path = .ok url) (hserves : Serves c path reply Within) {shared : Shared S}
    (hstart : Within shared) (hchain : Chain reply none cursors) {fuel : Nat}
    (hfuel : cursors.length < fuel) (codec : Codec α) : cursors.Nodup ∧
      (∀ pages, List.Forall₂ (Has codec reply) cursors pages →
        ∃ requests, List.Forall₂ (IsRequestFor c path) cursors requests ∧
          (listing c codec fuel path : Work M _).ComesTo shared (requests.map Call.exchange)
            (.ok pages.flatten)) ∧
      ∀ broken ∈ cursors, (∀ items, ¬ Has codec reply broken items) →
        ∃ before cursor rest requests e, cursors = before ++ cursor :: rest ∧
          (∀ items, ¬ Has codec reply cursor items) ∧
          List.Forall₂ (IsRequestFor c path) (before ++ [cursor]) requests ∧
          (listing c codec fuel path : Work M _).ComesTo shared (requests.map Call.exchange)
            (.error e) := by
  obtain ⟨requests, pages, cause, s', hreading, hread⟩ :=
    hchain.exists_reading codec hpath hurl hserves hstart
  have hcomes : (listing c codec fuel path : Work M _).ComesTo shared (requests.map Call.exchange)
      (listOf pages cause) := by
    have henough : requests.length < fuel := Nat.lt_of_le_of_lt hread.length_le hfuel
    exact Program.comesTo_of_course hanswers fun locks =>
      ⟨⟨s', locks, none⟩, hreading.leads_listing (l := ⟨shared, locks, none⟩) henough rfl⟩
  refine ⟨hchain.nodup, fun pages' hpages' => ?_, fun broken hmem hbroken => ?_⟩
  · cases hread with
    | whole hrequests hpages =>
        obtain rfl : pages = pages' := has_unique.forall₂ hpages hpages'
        exact ⟨requests, hrequests, hcomes⟩
    | part hcursors _ hbroken =>
        obtain ⟨items, hitems⟩ := exists_has_of_mem hpages'
          (hcursors ▸ List.mem_append_right _ List.mem_cons_self)
        exact (hbroken items hitems).elim
  · cases hread with
    | whole _ hpages =>
        obtain ⟨items, hitems⟩ := exists_has_of_mem hpages hmem
        exact (hbroken items hitems).elim
    | part hcursors hrequests hbroken =>
        exact ⟨_, _, _, requests, _, hcursors, hbroken, hrequests, hcomes⟩

/-! ## A list of two pages -/

/-- The page without a cursor wraps a list and names the
cursor `a b`; the page of that cursor is a bare list. -/
def pair : Option String → Except Silence Reply
  | none => .ok ⟨200, .ok
      "\x7b\"result\":[\"s1\"],\"paging_metadata\":\x7b\"cursor\":\"a b\"\x7d\x7d"⟩
  | some "a b" => .ok ⟨200, .ok "[\"s2\",\"s3\"]"⟩
  | some _ => .ok ⟨404, .ok ""⟩

/-- A server for these pages, which knows a page by the query of the request. -/
def pairServer (r : Request) : Except Silence Reply :=
  match pathPairs r.url with
  | [] => pair none
  | (_, cursor) :: _ =>
      if cursor = "a b".toUTF8.toList then pair (some "a b") else .ok ⟨404, .ok ""⟩

def pairWire : Shared Scripted.wireSurroundings :=
  ⟨⟨pairServer, .down, []⟩, 0, 0, 0⟩

def pairClient : Client :=
  ⟨"https://p2.example/dtr", [], none⟩

theorem pair_serves : Serves pairClient (lookupPath []) pair
    fun s : Shared Scripted.wireSurroundings => s.world.server = pairServer where
  replies := by
    intro s cursor r hs hr
    obtain ⟨p, hurl, hplace, hpairs⟩ := hr.url
    have hjoin : pathPairs r.url = pathPairs p := by
      rw [hurl]
      exact (IsListPath.lookup []).pathPairs_join hplace (by decide)
    have hserver : pairServer r = pair cursor := by
      have hpath : pathPairs (lookupPath []) = [] := rfl
      rw [pairServer, hjoin, hpairs, hpath, List.nil_append]
      cases cursor with
      | none => rfl
      | some k =>
          simp only [Option.toList_some, List.map_cons, List.map_nil]
          by_cases hk : k = "a b"
          · rw [hk, if_pos rfl]
          · rw [if_neg (mt Text.toList_toUTF8_inj.1 hk)]
            simp [pair]
    rw [← hserver, ← hs]
    rfl
  stays := fun s cursor r hs hr => hs

theorem wire_answers : Scripted.wireSurroundings.Answers := by
  intro world call millis h
  cases h

def pairFirst : Json :=
  .object [("result", .list [.text "s1"]), ("paging_metadata", .object [("cursor", .text "a b")])]

theorem pair_brings_first : Brings (pair none) pairFirst :=
  ⟨200, _, pairFirst, rfl, by decide, by decide, by decide +kernel, rfl⟩

theorem pair_brings_second : Brings (pair (some "a b")) (.list [.text "s2", .text "s3"]) :=
  ⟨200, _, .list [.text "s2", .text "s3"], rfl, by decide, by decide, by decide +kernel, rfl⟩

theorem pair_chain : Chain pair none [none, some "a b"] := by
  refine .next pair_brings_first ⟨by decide, _, rfl, rfl⟩ (.last fun v next hbrings hnames => ?_)
  obtain rfl := pair_brings_second.unique hbrings
  obtain ⟨-, metadata, hmetadata, -⟩ := hnames
  cases hmetadata

theorem pair_has :
    List.Forall₂ (Has .text pair) [none, some "a b"] [["s1"], ["s2", "s3"]] :=
  .cons ⟨_, pair_brings_first, _, .wrapped rfl, .cons rfl .nil⟩
    (.cons ⟨_, pair_brings_second, _, .bare _, .cons rfl (.cons rfl .nil)⟩ .nil)

theorem pair_listed :
    Serves pairClient (lookupPath []) pair
        (fun s : Shared Scripted.wireSurroundings => s.world.server = pairServer) ∧
      Chain pair none [none, some "a b"] ∧
      ∃ requests,
        List.Forall₂ (IsRequestFor pairClient (lookupPath [])) [none, some "a b"] requests ∧
        (listing pairClient .text 3 (lookupPath []) : Work Dataspace.Registry.memory _).ComesTo
          pairWire (requests.map Call.exchange) (.ok ["s1", "s2", "s3"]) := by
  have hurl : pairClient.url (lookupPath []) = .ok "https://p2.example/dtr/lookup/shells" := by
    decide +kernel
  exact ⟨pair_serves, pair_chain,
    (listing_whole_or_failed wire_answers (.lookup []) hurl pair_serves rfl pair_chain
      (by decide) .text).2.1 [["s1"], ["s2", "s3"]] pair_has⟩

end Dataspace.Http.Registry
