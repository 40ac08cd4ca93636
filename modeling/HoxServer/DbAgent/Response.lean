/-
HoxServer.DbAgent.Response — the responses of the database agent as text
(`hoxTypes.cpp`, `hoxUtil.cpp`), and what the server's client reads of
them: `_read_line` of `hoxDbClient.cpp`.

The agent ends the header of a response with two newlines that its
handler prints, and data may follow. The reader takes the text up to
there, so the text must have no such end before it; and it drops every
other newline on the way.
-/
import HoxServer.Net.DbClient

namespace HoxServer.DbAgent

open Lib HoxServer.Net

/-! ## Responses -/

/-- `hoxUtil::requestTypeToString` of the agent. -/
def requestTypeToString : Agent.RequestType → Bytes
  | .unknown => bytes "UNKNOWN"
  | .hello => bytes "HELLO"
  | .dbPlayerPut => bytes "DB_PLAYER_PUT"
  | .dbPlayerGet => bytes "DB_PLAYER_GET"
  | .dbPlayerSet => bytes "DB_PLAYER_SET"
  | .dbProfileSet => bytes "DB_PROFILE_SET"
  | .dbPasswordSet => bytes "DB_PASSWORD_SET"
  | .httpGet => bytes "HTTP_GET"
  | .log => bytes "LOG"

/-- `hoxResponse` of the agent, as a handler that returns makes it: the code
is OK, and there is no table id. -/
structure Response where
  type : Agent.RequestType
  content : Bytes
  deriving DecidableEq

/-- What `hoxResponse::toString` prints before the content. -/
def Response.header (response : Response) : Bytes :=
  bytes "op=" ++ requestTypeToString response.type ++ bytes "&code=0" ++ bytes "&content="

/-- `hoxResponse::toString`. -/
def Response.toString (response : Response) : Bytes := response.header ++ response.content

theorem header_clean (response : Response) :
    10 ∉ response.header ∧ response.header.length < 64 := by
  unfold Response.header
  cases response.type <;> decide

theorem header_ne_nil (response : Response) : response.header ≠ [] := by
  unfold Response.header
  cases response.type <;> decide

/-! ## The reader -/

variable {bSawOne : Bool} {commandStr text rest input : Bytes}

/-- What has no newline is read as it is. -/
theorem readAnswerFrom_append (hne : text ≠ []) (hclean : 10 ∉ text)
    (hlt : (commandStr ++ text).length < networkMaxMsgSize) :
    readAnswerFrom bSawOne commandStr (text ++ input) =
      readAnswerFrom false (commandStr ++ text) input := by
  induction text generalizing bSawOne commandStr with
  | nil => exact absurd rfl hne
  | cons c text ih =>
    obtain ⟨hc, hclean⟩ := not_or.mp (mt List.mem_cons.mpr hclean)
    have hshort : ¬ networkMaxMsgSize ≤ (commandStr ++ [c]).length := by
      simp only [List.length_append, List.length_cons, List.length_nil] at hlt ⊢
      omega
    rw [List.cons_append, readAnswerFrom, if_neg (Ne.symm hc), if_neg hshort]
    by_cases htext : text = []
    · subst htext
      rfl
    · have happend : commandStr ++ [c] ++ text = commandStr ++ c :: text := by simp
      rw [ih htext hclean (by rw [happend]; exact hlt), happend]

/-- A text that is too long is not read. -/
theorem readAnswerFrom_long (hshort : commandStr.length < networkMaxMsgSize)
    (hclean : 10 ∉ text) (hlong : networkMaxMsgSize ≤ (commandStr ++ text).length) :
    (readAnswerFrom bSawOne commandStr (text ++ input)).2.1 = [] := by
  induction text generalizing bSawOne commandStr with
  | nil =>
    rw [List.append_nil] at hlong
    exact absurd hlong (not_le.mpr hshort)
  | cons c text ih =>
    obtain ⟨hc, hclean⟩ := not_or.mp (mt List.mem_cons.mpr hclean)
    rw [List.cons_append, readAnswerFrom, if_neg (Ne.symm hc)]
    split
    · rfl
    · rename_i hc'
      exact ih (not_le.mp hc') hclean (by simpa using hlong)

/-- **A response is read up to its two newlines**, where the text before
them has none and is short enough. -/
theorem sendRequestOverSocket_append (hne : text ≠ []) (hclean : 10 ∉ text)
    (hlt : text.length < networkMaxMsgSize) :
    sendRequestOverSocket (text ++ 10 :: 10 :: rest) = (.ok, text, rest) := by
  rw [sendRequestOverSocket, readAnswerFrom_append hne hclean (by simpa using hlt),
    List.nil_append, readAnswerFrom, if_pos rfl, if_neg Bool.false_ne_true, readAnswerFrom,
    if_pos rfl, if_pos rfl]

theorem answer_append (hne : text ≠ []) (hclean : 10 ∉ text)
    (hlt : text.length < networkMaxMsgSize) : answer (text ++ 10 :: 10 :: rest) = text := by
  rw [answer, sendRequestOverSocket_append hne hclean hlt]

/-- A line that is too long is no answer. -/
theorem answer_long (hclean : 10 ∉ text) (hlong : networkMaxMsgSize ≤ text.length) :
    answer (text ++ rest) = [] := by
  rw [answer, sendRequestOverSocket]
  exact readAnswerFrom_long (by decide) hclean hlong

/-- What the reader sees of a text: no newline, and nothing after two. -/
def visibleFrom (bSawOne : Bool) : Bytes → Bytes
  | [] => []
  | c :: text =>
    if c = 10 then
      if bSawOne then [] else visibleFrom true text
    else c :: visibleFrom false text

def visible (text : Bytes) : Bytes := visibleFrom false text

theorem visibleFrom_sublist (bSawOne : Bool) (text : Bytes) :
    (visibleFrom bSawOne text).Sublist text := by
  induction text generalizing bSawOne with
  | nil => exact List.nil_sublist _
  | cons c text ih =>
    rw [visibleFrom]
    split
    · split
      · exact List.nil_sublist _
      · exact (ih true).cons c
    · exact (ih false).cons_cons c

theorem not_mem_visibleFrom (bSawOne : Bool) (text : Bytes) : 10 ∉ visibleFrom bSawOne text := by
  induction text generalizing bSawOne with
  | nil => exact List.not_mem_nil
  | cons c text ih =>
    rw [visibleFrom]
    split
    · split
      · exact List.not_mem_nil
      · exact ih true
    · rename_i hc
      exact fun h => (List.mem_cons.mp h).elim (fun heq => hc heq.symm) (ih false)

/-- A text without newlines is seen, and so is what is visible after it. -/
theorem visible_append (hclean : 10 ∉ text) : visible (text ++ rest) = text ++ visible rest := by
  unfold visible
  induction text with
  | nil => rfl
  | cons c text ih =>
    obtain ⟨hc, hclean⟩ := not_or.mp (mt List.mem_cons.mpr hclean)
    rw [List.cons_append, visibleFrom, if_neg (Ne.symm hc), ih hclean, List.cons_append]

/-- **What is read of any text** before two newlines: what is visible of it,
if that is short enough. -/
theorem readAnswerFrom_visible (hshort : commandStr.length < networkMaxMsgSize) :
    (readAnswerFrom bSawOne commandStr (text ++ 10 :: 10 :: rest)).2.1 =
      if (commandStr ++ visibleFrom bSawOne text).length < networkMaxMsgSize then
        commandStr ++ visibleFrom bSawOne text
      else [] := by
  induction text generalizing bSawOne commandStr with
  | nil => cases bSawOne <;> simp [readAnswerFrom, visibleFrom, hshort]
  | cons c text ih =>
    rw [List.cons_append, readAnswerFrom, visibleFrom]
    split
    · split
      · simp [hshort]
      · exact ih hshort
    · have happend : commandStr ++ c :: visibleFrom false text =
          commandStr ++ [c] ++ visibleFrom false text := by simp
      rw [happend]
      split
      · rename_i hlong
        rw [if_neg]
        rw [List.length_append]
        omega
      · rename_i hlong
        exact ih (not_le.mp hlong)

theorem answer_visible : answer (text ++ 10 :: 10 :: rest) =
    if (visible text).length < networkMaxMsgSize then visible text else [] := by
  rw [answer, sendRequestOverSocket, readAnswerFrom_visible (by decide), List.nil_append]
  rfl

/-! ## What the server reads -/

theorem plain_intToString (n : Int) : separator.Plain (intToString n) := by
  intro c hc
  refine ⟨?_, ?_, ?_⟩ <;> rintro rfl <;> exact not_mem_intToString (by decide) n hc

theorem plain_requestTypeToString (type : Agent.RequestType) :
    separator.Plain (requestTypeToString type) := by
  cases type <;> decide

theorem code_lt_content : bytes "code" < bytes "content" := by decide +kernel

/-- The parameters of a response with this content. -/
def parameters (content : Bytes) : Parameters :=
  ⟨[(bytes "code", bytes "0"), (bytes "content", content)], List.pairwise_pair.mpr code_lt_content⟩

/-- The type that the server has for a response of the agent. -/
def serverType (type : Agent.RequestType) : RequestType :=
  stringToRequestType (requestTypeToString type)

theorem toString_eq (response : Response) (text : Bytes) : response.header ++ text =
    (⟨response.type, parameters text⟩ : Request Agent.RequestType).toString
      requestTypeToString := by
  have hcode : bytes "&code=0" = bytes "&" ++ (bytes "code" ++ bytes "=" ++ bytes "0") := by decide
  have hcontent : bytes "&content=" = bytes "&" ++ (bytes "content" ++ bytes "=") := by decide
  simp [Response.header, Request.toString, parameters, pair, hcode, hcontent]

/-- The header ends in the name of the content. -/
theorem fields_header (response : Response) (text : Bytes) :
    separator.fields (response.header ++ text) =
      (separator.fieldsFrom false (bytes "content=") text).map fun read =>
        (bytes "op=" ++ requestTypeToString response.type) :: bytes "code=0" :: read := by
  have hop : separator.Plain (bytes "op=" ++ requestTypeToString response.type) := by
    have hplain : separator.Plain (bytes "op=") := by decide
    exact fun c hc => (List.mem_append.mp hc).elim (hplain c)
      (plain_requestTypeToString response.type c)
  have hheader : response.header ++ text = (bytes "op=" ++ requestTypeToString response.type) ++
      separator.separator :: (bytes "code=0" ++
        separator.separator :: (bytes "content=" ++ text)) := by
    have hcode : bytes "&code=0" = separator.separator :: bytes "code=0" := by decide
    have hcontent : bytes "&content=" = separator.separator :: bytes "content=" := by decide
    simp [Response.header, hcode, hcontent]
  have hfields : separator.fields (response.header ++ text) =
      separator.fieldsFrom false [] (response.header ++ text) := by
    rw [hheader]
    rfl
  rw [hfields, hheader, Separator.fieldsFrom_append hop, List.nil_append,
    Separator.fieldsFrom_separator, Separator.fieldsFrom_append (by decide), List.nil_append,
    Separator.fieldsFrom_separator, Separator.fieldsFrom_append (by decide), List.nil_append]
  cases separator.fieldsFrom false (bytes "content=") text <;> rfl

/-- A content that is read comes from one of the fields after the header. -/
theorem getParam_content {response : Response} {request : Request RequestType} {read : List Bytes}
    (hparse : Request.parse (response.header ++ text) = .ok request)
    (hread : separator.fieldsFrom false (bytes "content=") text = .ok read) :
    request.getParam (bytes "content") = [] ∨
      ∃ g ∈ read, nameValue g = (bytes "content", request.getParam (bytes "content")) := by
  cases hget : request.parameters.get? (bytes "content") with
  | none => exact Or.inl (by simp [Request.getParam, hget])
  | some value =>
    have hvalue : request.getParam (bytes "content") = value := by simp [Request.getParam, hget]
    rw [Request.parse, parseNetworkMessage, fields_header, hread] at hparse
    cases hparse
    obtain ⟨hop, hmem⟩ := (mem_foldl_take (SortedMap.mem_of_get? hget)).resolve_left
      List.not_mem_nil
    rw [hvalue]
    refine Or.inr ?_
    simp only [List.map_cons, List.mem_cons, List.mem_map] at hmem
    rcases hmem with hmem | hmem | hmem
    · have hname := congrArg Prod.fst hmem
      have hnot : bytes "content" ≠ bytes "op" := by decide
      have heq : bytes "op=" ++ requestTypeToString response.type =
          bytes "op" ++ 61 :: requestTypeToString response.type := rfl
      rw [heq, nameValue_append (by decide)] at hname
      exact absurd hname hnot
    · have hname : bytes "content" = bytes "code" := congrArg Prod.fst hmem
      exact absurd hname (by decide)
    · exact hmem

theorem plain_content (hplain : separator.Plain text) :
    PlainParameter (bytes "content", text) := by
  have hname : bytes "content" ≠ bytes "op" ∧ 61 ∉ bytes "content" ∧
      separator.Plain (bytes "content") := by decide
  exact ⟨hname.1, hname.2.1, hname.2.2, hplain⟩

/-- A plain content is read as it is. -/
theorem parse_plain (response : Response) (hplain : separator.Plain text) :
    Request.parse (response.header ++ text) =
      .ok ⟨serverType response.type, parameters text⟩ := by
  have htype : stringToRequestType (requestTypeToString response.type) =
      serverType response.type := rfl
  rw [toString_eq]
  refine (parse_toString (plain_requestTypeToString response.type) htype).mpr
    fun parameter hmem => ?_
  simp only [parameters, List.mem_cons, List.not_mem_nil, or_false] at hmem
  rcases hmem with rfl | rfl
  · exact ⟨by decide, by decide, by decide, by decide⟩
  · exact plain_content hplain

theorem getParam_parameters (type : RequestType) (content : Bytes) :
    (⟨type, parameters content⟩ : Request RequestType).getParam (bytes "code") = bytes "0" ∧
      (⟨type, parameters content⟩ : Request RequestType).getParam (bytes "content") = content := by
  have hne : bytes "code" ≠ bytes "content" := by decide
  constructor
  · simp [Request.getParam, parameters, SortedMap.get?]
  · simp [Request.getParam, parameters, SortedMap.get?, hne]

end HoxServer.DbAgent
