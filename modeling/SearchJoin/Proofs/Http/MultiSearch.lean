import SearchJoin.Http.Client
import SearchJoin.Proofs.Except
import SearchJoin.Proofs.Json.Reading
import SearchJoin.Proofs.Text.Blank

/-!
# Searches that are sent together

Searches that are sent together are framed by line breaks, and what comes back is matched by position alone. Whatever
is searched for, no line break gets into a line, and each search has its two lines; and whatever comes back, each
search has the answer that stands at its place.

Main statement: `multiSearch_positional`.
-/

namespace SearchJoin.Http

variable {request : Request} {requests : List Request}

/-! ## The lines of a body -/

/-- The line that names the index of a search. -/
def indexLine (request : Request) : Json := .obj [("index", .str request.index)]

/-- Each search has a line for its index and a line for its body. -/
structure Framed (requests : List Request) (body : List Char) : Prop where
  /-- The body ends in a line break. -/
  ends : body.getLast? = some '\n'
  /-- Between line breaks there are two lines for each search, and nothing behind the last line break. -/
  lines : ∃ lines, Text.split '\n' body = lines ++ [[]] ∧ lines.length = 2 * requests.length ∧
    (∀ line ∈ lines, line ≠ []) ∧ ∀ i (hi : i < requests.length),
      lines[2 * i]?.bind Json.ofChars? = some (indexLine requests[i]) ∧
        lines[2 * i + 1]?.bind Json.ofChars? = some requests[i].body

/-- The two lines of each search. -/
def lines (requests : List Request) : List (List Char) :=
  requests.flatMap fun request => [(indexLine request).compact, request.body.compact]

theorem toList_requestLines (request : Request) :
    (requestLines request).toList =
      [(indexLine request).compact, request.body.compact].flatMap (· ++ ['\n']) := by
  have hbreak : "\n".toList = ['\n'] := rfl
  rw [requestLines, String.toList_append, String.toList_append, String.toList_append, hbreak]
  simp only [Json.compress, String.toList_ofList, List.append_assoc, List.flatMap_cons, List.flatMap_nil,
    List.append_nil, indexLine]

theorem toList_foldl_append (texts : List String) (before : String) :
    (texts.foldl (· ++ ·) before).toList = before.toList ++ texts.flatMap String.toList := by
  induction texts generalizing before with
  | nil => rw [List.flatMap_nil, List.append_nil]; rfl
  | cons text texts ih =>
    rw [List.foldl_cons, ih, String.toList_append, List.flatMap_cons, List.append_assoc]

/-- The body is its lines, each with a line break behind it. -/
theorem toList_multiSearchBody (requests : List Request) :
    (multiSearchBody requests).toList = (lines requests).flatMap (· ++ ['\n']) := by
  have hjoin : (multiSearchBody requests).toList = (requests.map requestLines).flatMap String.toList :=
    toList_foldl_append (requests.map requestLines) ""
  rw [hjoin, List.flatMap_map, lines, List.flatMap_assoc]
  simp only [toList_requestLines]

theorem newline_notMem_of_mem_lines {line : List Char} (h : line ∈ lines requests) : '\n' ∉ line := by
  obtain ⟨request, -, hline⟩ := List.mem_flatMap.1 h
  rcases List.mem_pair.1 hline with rfl | rfl
  · exact Json.newline_notMem_compact _
  · exact Json.newline_notMem_compact _

theorem ne_nil_of_mem_lines {line : List Char} (h : line ∈ lines requests) : line ≠ [] := by
  obtain ⟨request, -, hline⟩ := List.mem_flatMap.1 h
  rcases List.mem_pair.1 hline with rfl | rfl
  · exact Json.compact_ne_nil _
  · exact Json.compact_ne_nil _

theorem length_lines (requests : List Request) : (lines requests).length = 2 * requests.length := by
  rw [lines, List.length_flatMap]
  simp [Nat.mul_comm]

/-- The lines of a search stand at twice its place. -/
theorem getElem?_lines (requests : List Request) (i : Nat) :
    (lines requests)[2 * i]? = requests[i]?.map (fun request => (indexLine request).compact) ∧
      (lines requests)[2 * i + 1]? = requests[i]?.map (fun request => request.body.compact) := by
  induction requests generalizing i with
  | nil => exact ⟨rfl, rfl⟩
  | cons request requests ih =>
    cases i with
    | zero => exact ⟨rfl, rfl⟩
    | succ i => exact ih i

/-- However the searches look, their body can be cut into the lines that it was made of. -/
theorem framed_multiSearchBody (hne : requests ≠ []) : Framed requests (multiSearchBody requests).toList := by
  rw [toList_multiSearchBody]
  constructor
  · have hpos : 0 < requests.length := List.length_pos_iff.2 hne
    have hlength := length_lines requests
    rcases List.eq_nil_or_concat (lines requests) with hnil | ⟨others, last, hlast⟩
    · rw [hnil, List.length_nil] at hlength
      omega
    · rw [hlast, List.concat_eq_append, List.flatMap_append, List.flatMap_singleton, ← List.append_assoc,
        List.getLast?_concat]
  · refine ⟨lines requests, Text.split_flatMap fun line => newline_notMem_of_mem_lines, length_lines requests,
      fun line => ne_nil_of_mem_lines, ?_⟩
    intro i hi
    obtain ⟨hindex, hbody⟩ := getElem?_lines requests i
    rw [hindex, hbody, List.getElem?_eq_getElem hi]
    exact ⟨Json.ofChars?_compact _, Json.ofChars?_compact _⟩

/-! ## What comes back -/

/-- A field that is not there or is `null`. -/
def Missing (field : Option Json) : Prop := field = none ∨ field = some .null

/-- The documents of hits, one for each item and in their order; none where there is no list of them. -/
def HoldsDocuments (container : Json) (documents : List Document) : Prop :=
  ∃ total held, container.record? ["total", "hits"] = some [total, held] ∧
    (held = none ∧ documents = [] ∨ ∃ items, held = some (.arr items) ∧
      List.Forall₂ (fun item document => Document.ofJson? item = some document) items documents)

/-- What an item of a reply says of the search at its place. -/
inductive Says (item : Json) : Answer → Prop where
  /-- There is an error that is not `null`. -/
  | failed {hits : Option Json} {error : Json} (hfields : item.record? ["hits", "error"] = some [hits, some error])
    (herror : error ≠ .null) : Says item (.failed (Value.ofJson error).json.compress)
  /-- There are no hits. -/
  | empty {hits error : Option Json} (hfields : item.record? ["hits", "error"] = some [hits, error])
    (herror : Missing error) (hhits : Missing hits) : Says item (.failed "response has no hits")
  /-- There are hits. -/
  | hits {container : Json} {error : Option Json} {found : Hits}
    (hfields : item.record? ["hits", "error"] = some [some container, error]) (herror : Missing error)
    (hcontainer : container ≠ .null) (hfound : hits? container = some found)
    (hdocuments : HoldsDocuments container found.hits) : Says item (.hits found)

theorem optional?_cases {α : Type} {decode : Json → Option α} {field : Option Json} {decoded : Option α}
    (h : Json.optional? decode field = some decoded) :
    Missing field ∧ decoded = none ∨
      ∃ json x, field = some json ∧ json ≠ .null ∧ decode json = some x ∧ decoded = some x := by
  unfold Json.optional? at h
  split at h
  · cases h
    exact .inl ⟨.inl rfl, rfl⟩
  · cases h
    exact .inl ⟨.inr rfl, rfl⟩
  · next json hnull =>
    obtain ⟨x, hx, rfl⟩ := Option.map_eq_some_iff.1 h
    exact .inr ⟨json, x, rfl, hnull, hx, rfl⟩

theorem holdsDocuments_of_hits? {container : Json} {found : Hits} (h : hits? container = some found) :
    HoldsDocuments container found.hits := by
  unfold hits? at h
  obtain ⟨fields, hfields, h⟩ := Option.bind_eq_some_iff.1 h
  split at h
  · next total held =>
    obtain ⟨counted, -, h⟩ := Option.bind_eq_some_iff.1 h
    obtain ⟨documents, hdocuments, h⟩ := Option.bind_eq_some_iff.1 h
    cases h
    refine ⟨total, held, hfields, ?_⟩
    cases held with
    | none =>
      cases hdocuments
      exact .inl ⟨rfl, rfl⟩
    | some json =>
      have hlist : Json.list? Document.ofJson? json = some documents := hdocuments
      cases json with
      | arr items => exact .inr ⟨items, rfl, mapM_eq_some_iff.1 hlist⟩
      | _ => cases hlist
  · cases h

theorem entry_cases {item : Json} {entry : Entry} (h : Entry.ofJson? item = some entry) :
    ∃ hits error, item.record? ["hits", "error"] = some [hits, error] ∧
      Json.optional? hits? hits = some entry.hits ∧
      Json.optional? (fun error => some (Value.ofJson error)) error = some entry.error := by
  unfold Entry.ofJson? at h
  obtain ⟨fields, hfields, h⟩ := Option.bind_eq_some_iff.1 h
  split at h
  · next hits error =>
    obtain ⟨found, hfound, h⟩ := Option.bind_eq_some_iff.1 h
    obtain ⟨reason, hreason, h⟩ := Option.bind_eq_some_iff.1 h
    cases h
    exact ⟨hits, error, hfields, hfound, hreason⟩
  · cases h

/-- The answer of an entry is what the item says that the entry was read from. -/
theorem says_answer {item : Json} {entry : Entry} (h : Entry.ofJson? item = some entry) : Says item entry.answer := by
  obtain ⟨hits, error, hfields, hhits, herror⟩ := entry_cases h
  obtain ⟨found, reason⟩ := entry
  rcases optional?_cases herror with ⟨hmissing, rfl⟩ | ⟨json, value, rfl, hnull, hvalue, rfl⟩
  · rcases optional?_cases hhits with ⟨hnone, rfl⟩ | ⟨container, found, rfl, hnull, hfound, rfl⟩
    · exact .empty hfields hmissing hnone
    · exact .hits hfields hmissing hnull hfound (holdsDocuments_of_hits? hfound)
  · cases hvalue
    exact .failed hfields hnull

theorem not_missing {json : Json} (h : json ≠ .null) : ¬ Missing (some json) := by
  rintro (hnone | hnull)
  · cases hnone
  · exact h (Option.some.inj hnull)

/-- An item says one thing. -/
theorem Says.unique {item : Json} {answer other : Answer} (h : Says item answer) (h' : Says item other) :
    other = answer := by
  cases h with
  | failed hfields hnull =>
    cases h' with
    | failed hfields' _ =>
      cases hfields.symm.trans hfields'
      rfl
    | empty hfields' hmissing _ | hits hfields' hmissing _ _ _ =>
      cases hfields.symm.trans hfields'
      exact absurd hmissing (not_missing hnull)
  | empty hfields hmissing hnone =>
    cases h' with
    | failed hfields' hnull =>
      cases hfields.symm.trans hfields'
      exact absurd hmissing (not_missing hnull)
    | empty => rfl
    | hits hfields' _ hnull _ _ =>
      cases hfields.symm.trans hfields'
      exact absurd hnone (not_missing hnull)
  | hits hfields hmissing hnull hfound _ =>
    cases h' with
    | failed hfields' hnull' =>
      cases hfields.symm.trans hfields'
      exact absurd hmissing (not_missing hnull')
    | empty hfields' _ hnone =>
      cases hfields.symm.trans hfields'
      exact absurd hnone (not_missing hnull)
    | hits hfields' _ _ hfound' _ =>
      cases hfields.symm.trans hfields'
      cases hfound.symm.trans hfound'
      rfl

theorem forall₂_of_multiSearchReply? {tree : Json} {entries : List Entry} (h : multiSearchReply? tree = some entries) :
    ∃ items, tree.record? ["responses"] = some [some (.arr items)] ∧
      List.Forall₂ (fun item entry => Entry.ofJson? item = some entry) items entries := by
  unfold multiSearchReply? at h
  obtain ⟨fields, hfields, h⟩ := Option.bind_eq_some_iff.1 h
  split at h
  · next responses =>
    cases responses with
    | none => cases h
    | some json =>
      have hlist : Json.list? Entry.ofJson? json = some entries := h
      cases json with
      | arr items => exact ⟨items, hfields, mapM_eq_some_iff.1 hlist⟩
      | _ => cases hlist
  · cases h

/-! ## The call -/

theorem body_of_multiSearchMessage {settings : TransportSettings} {message : Message}
    (h : multiSearchMessage settings requests = .ok message) : message.body = multiSearchBody requests := by
  unfold multiSearchMessage Http.message at h
  split at h
  · cases h
  · dsimp only at h
    split_ifs at h
    cases h
    rfl

/-- Where messages can be sent they can be sent whatever is searched for. -/
theorem exists_multiSearchMessage {settings : TransportSettings} {url : Url}
    (hurl : Url.ofChars? (multiSearchAddress settings) = some url) (hhost : url.namesHost = true)
    (hheader : ((authorization settings).getD "").toList.all isHeaderChar = true) (hsendable : url.isSendable = true)
    (requests : List Request) : ∃ message, multiSearchMessage settings requests = .ok message := by
  unfold multiSearchMessage Http.message
  rw [hurl]
  dsimp only
  rw [hhost, hheader, if_pos hsendable]
  exact ⟨_, rfl⟩

theorem answers_isOk_iff {entries : List Entry} :
    (∃ given, answers requests entries = .ok given) ↔ entries.length = requests.length := by
  unfold answers
  by_cases hlength : entries.length = requests.length
  · rw [if_pos hlength]
    exact iff_of_true ⟨_, rfl⟩ hlength
  · rw [if_neg hlength]
    exact iff_of_false nofun hlength

theorem eq_of_answers_eq_ok {entries : List Entry} {given : List Answer} (h : answers requests entries = .ok given) :
    given = entries.map Entry.answer := by
  unfold answers at h
  split at h
  · cases h
    rfl
  · cases h

section Call

variable {settings : TransportSettings} {exchange : Exchange} {message : Message} {reply : Reply} {tree : Json}
  {entries : List Entry}

/-- A call whose reply is a success and can be read is answered by its entries. -/
theorem multiSearch_eq_answers (hne : requests ≠ []) (hmessage : multiSearchMessage settings requests = .ok message)
    (hreply : exchange message = some reply) (hsuccess : reply.status.isSuccess = true)
    (htree : Json.receive? reply.body = some tree) (hentries : multiSearchReply? tree = some entries) :
    multiSearch settings exchange requests = answers requests entries := by
  have hsend : send exchange message = .ok reply.body := by
    rw [send, hreply]
    exact if_pos hsuccess
  have hempty : ¬ requests.isEmpty = true := mt List.isEmpty_iff.1 hne
  unfold multiSearch
  simp only [if_neg hempty, hmessage, bind, Except.bind, hsend, htree, Option.bind_some, hentries]

/-- Searches that are sent together are framed without ambiguity, and what comes back is matched by position. The
call succeeds exactly when the reply has one item for each search, and then each answer is the one that the item at
its place says, whatever the other items are. -/
theorem multiSearch_positional (settings : TransportSettings) (hne : requests ≠ []) :
    Framed requests (multiSearchBody requests).toList ∧
      ∀ exchange message reply tree entries, multiSearchMessage settings requests = .ok message →
        exchange message = some reply → reply.status.isSuccess = true →
        Json.receive? reply.body = some tree → multiSearchReply? tree = some entries →
        message.body = multiSearchBody requests ∧
          ∃ items, tree.record? ["responses"] = some [some (.arr items)] ∧
            ((∃ answers, multiSearch settings exchange requests = .ok answers) ↔ items.length = requests.length) ∧
            ∀ answers, multiSearch settings exchange requests = .ok answers →
              List.Forall₂ (fun item answer => ∀ other, Says item other ↔ other = answer) items answers := by
  refine ⟨framed_multiSearchBody hne, ?_⟩
  intro exchange message reply tree entries hmessage hreply hsuccess htree hentries
  obtain ⟨items, hitems, heach⟩ := forall₂_of_multiSearchReply? hentries
  have hcall := multiSearch_eq_answers hne hmessage hreply hsuccess htree hentries
  have hlength := heach.length_eq
  refine ⟨body_of_multiSearchMessage hmessage, items, hitems, ?_, ?_⟩
  · rw [hcall, hlength]
    exact answers_isOk_iff
  · intro answers' hanswers
    rw [hcall] at hanswers
    rw [eq_of_answers_eq_ok hanswers, List.forall₂_map_right_iff]
    refine heach.imp fun item entry hentry other => ?_
    have hsaid := says_answer hentry
    exact ⟨hsaid.unique, fun hother => hother ▸ hsaid⟩

/-- A search whose index and value hold line breaks, and the reply that nothing was found. -/
theorem multiSearch_positional_sample :
    let request : Request := { index := "a\nb", query := .term "name" (.str "\"\n") }
    let item : Json := .obj [("hits", .obj [("hits", .arr [])])]
    let exchange : Exchange := fun _ => some ⟨⟨200⟩, (Json.obj [("responses", .arr [item])]).compress⟩
    Framed [request] (multiSearchBody [request]).toList ∧
      multiSearch {} exchange [request] = .ok [.hits ⟨0, []⟩] := by
  intro request item exchange
  have hne : [request] ≠ [] := List.cons_ne_nil _ _
  obtain ⟨url, hurl, hsendable⟩ : ∃ url, Url.ofChars? (multiSearchAddress {}) = some url ∧
      (url.namesHost && url.isSendable) = true := by
    have hany : (Url.ofChars? (multiSearchAddress {})).any (fun url => url.namesHost && url.isSendable) = true := by
      decide +kernel
    exact (Option.any_eq_true _ _).1 hany
  obtain ⟨hhost, hsendable⟩ := Bool.and_eq_true_iff.1 hsendable
  obtain ⟨message, hmessage⟩ := exists_multiSearchMessage hurl hhost rfl hsendable [request]
  have hsaid : Says item (.hits ⟨0, []⟩) :=
    .hits rfl (.inl rfl) nofun rfl ⟨none, some (.arr []), rfl, .inr ⟨[], rfl, .nil⟩⟩
  obtain ⟨hframed, hreplies⟩ := multiSearch_positional {} hne
  obtain ⟨-, items, hitems, hok, hanswers⟩ := hreplies exchange message _ _ [⟨some ⟨0, []⟩, none⟩] hmessage rfl rfl
    (Json.receive?_compress (by decide)) rfl
  cases hitems
  obtain ⟨answers, hcall⟩ := hok.2 rfl
  obtain ⟨answer, rest, hanswer, hrest, rfl⟩ := List.forall₂_cons_left_iff.1 (hanswers answers hcall)
  cases hrest
  rw [hcall, (hanswer _).1 hsaid]
  exact ⟨hframed, rfl⟩

end Call

end SearchJoin.Http
