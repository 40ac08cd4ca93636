/-
HoxServer.Net.ResponseTheorems — the framing of the events that the
server sends.

A response ends with a double newline, and the client reads the stream up
to each one (`readMessages_drafts`). The texts in a response are those of
the clients, and what a client sends as an escape is a newline by then:
`framed_iff` says for every stream of events which texts leave it intact.
-/
import HoxServer.Net.Response

namespace HoxServer.Net

open Lib Lib.Framing

/-! ## The reader -/

section

variable {sOutput message rest : Bytes} {c : UInt8}

theorem readUntilAllFrom_done : readUntilAllFrom (bytes "\n\n") sOutput 2 rest =
    .ok (sOutput.take (sOutput.length - 2), rest) := by
  cases rest <;> rfl

theorem readUntilAllFrom_double :
    readUntilAllFrom (bytes "\n\n") sOutput 0 (10 :: 10 :: rest) = .ok (sOutput, rest) := by
  have htwo : readUntilAllFrom (bytes "\n\n") sOutput 0 (10 :: 10 :: rest) =
      readUntilAllFrom (bytes "\n\n") (sOutput ++ [10] ++ [10]) 2 rest := rfl
  rw [htwo, readUntilAllFrom_done]
  simp

/-- Any other byte starts the count again. -/
theorem readUntilAllFrom_other (hc : c ≠ 10) {currentSeen : Nat} (hseen : currentSeen < 2) :
    readUntilAllFrom (bytes "\n\n") sOutput currentSeen (c :: rest) =
      if readUntilAllMax ≤ (sOutput ++ [c]).length then .error .limit
      else readUntilAllFrom (bytes "\n\n") (sOutput ++ [c]) 0 rest := by
  have hwanted : (bytes "\n\n")[currentSeen]? = some 10 := by
    match currentSeen, hseen with
    | 0, _ => rfl
    | 1, _ => rfl
  have hlength : (bytes "\n\n").length = 2 := rfl
  rw [readUntilAllFrom.eq_def, hlength, if_neg (not_le.mpr hseen)]
  simp only [hwanted, Option.some.injEq, Ne.symm hc, if_false]

/-- A message is read whole if it is short enough. -/
theorem readUntilAllFrom_message (hblank : ¬ Blank 10 (message ++ [10])) :
    readUntilAllFrom (bytes "\n\n") sOutput 0 (message ++ 10 :: 10 :: rest) =
      if message = [] ∨ (sOutput ++ message).length < readUntilAllMax then
        .ok (sOutput ++ message, rest)
      else .error .limit := by
  induction message generalizing sOutput with
  | nil => simp [readUntilAllFrom_double]
  | cons c message ih =>
    rw [List.cons_append, blank_cons, not_or] at hblank
    have hnext := @ih (sOutput ++ [c]) hblank.2
    have hcons : sOutput ++ c :: message = sOutput ++ [c] ++ message := by simp
    rw [List.cons_append, hcons]
    by_cases hc : c = 10
    · -- the byte after a newline is not one
      subst hc
      cases message with
      | nil => simp at hblank
      | cons d message =>
        have hd : d ≠ 10 := by simpa using hblank.1
        have hone : readUntilAllFrom (bytes "\n\n") sOutput 0
            (10 :: (d :: message ++ 10 :: 10 :: rest)) =
            readUntilAllFrom (bytes "\n\n") (sOutput ++ [10]) 1
              (d :: message ++ 10 :: 10 :: rest) := rfl
        rw [hone, List.cons_append, readUntilAllFrom_other hd (by decide),
          ← readUntilAllFrom_other hd (by decide : 0 < 2), ← List.cons_append, hnext]
        simp
    · rw [readUntilAllFrom_other hc (by decide), hnext]
      have hlength : (sOutput ++ [c]).length ≤ (sOutput ++ [c] ++ message).length := by simp
      cases message with
      | nil =>
        simp only [List.append_nil, true_or, reduceCtorEq, false_or, if_true]
        split
        · rw [if_neg (by omega)]
        · rw [if_pos (by omega)]
      | cons d message =>
        simp only [reduceCtorEq, false_or]
        split
        · rw [if_neg (by omega)]
        · rfl

end

/-! ## The text of a draft -/

variable {draft : Draft}

/-- The length of a draft as text, without the last newline. -/
def Draft.textLength (draft : Draft) : Nat :=
  (requestTypeToString draft.type).length + (intToString (resultCode draft.code)).length +
    (if draft.tid ≠ [] then draft.tid.length + 5 else 0) + 18 +
    (draft.lines.map fun fields => (fields.map fun f => f.length + 1).sum).sum

/-- What a builder always has: lines, fields in them, and not one field only
in a line that is not the first. -/
structure Draft.Proper (draft : Draft) : Prop where
  lines : draft.lines ≠ []
  fields : ∀ fields ∈ draft.lines, fields ≠ []
  two : ∀ fields ∈ draft.lines.tail, 2 ≤ fields.length

theorem blank_header (content : Bytes) : Blank 10 (draft.response.header false ++ content) ↔
    Blank 10 draft.tid ∨ Blank 10 content := by
  have hop : (10 : UInt8) ∉ bytes "op=" ++ requestTypeToString draft.response.type ++
      bytes "&code=" ++ intToString (resultCode draft.response.code) := by
    have hop : (10 : UInt8) ∉ bytes "op=" := by decide
    have hcode : (10 : UInt8) ∉ bytes "&code=" := by decide
    simp [hop, hcode, not_mem_requestTypeToString, not_mem_intToString]
  have htid : (10 : UInt8) ∉ bytes "&tid=" := by decide
  have hcontent : (10 : UInt8) ∉ bytes "&content=" := by decide
  have hsplit : bytes "&content=" = 38 :: bytes "content=" := by decide
  have hcontent' : (10 : UInt8) ∉ bytes "content=" := by decide
  rw [Response.header, List.append_assoc, List.append_assoc, List.append_assoc,
    blank_append_left hop]
  by_cases hempty : draft.tid = []
  · simp [Draft.response, hempty, blank_append_left hcontent]
  · simp only [Draft.response, hempty, ne_eq, not_false_eq_true, if_true, Bool.false_eq_true,
      if_false, List.nil_append, List.append_assoc]
    rw [blank_append_left htid, hsplit, List.cons_append, blank_append_cons (by decide),
      blank_append_left hcontent']

theorem length_header : (draft.response.header false).length =
    (requestTypeToString draft.type).length + (intToString (resultCode draft.code)).length +
      (if draft.tid ≠ [] then draft.tid.length + 5 else 0) + 18 := by
  have hop : (bytes "op=").length = 3 := by decide
  have hcode : (bytes "&code=").length = 6 := by decide
  have htid : (bytes "&tid=").length = 5 := by decide
  have hcontent : (bytes "&content=").length = 9 := by decide
  by_cases hempty : draft.tid = []
  · simp [Response.header, Draft.response, hempty, hop, hcode, hcontent]
    omega
  · simp [Response.header, Draft.response, hempty, hop, hcode, htid, hcontent]
    omega

theorem Draft.Proper.toString (hproper : draft.Proper) (htype : draft.type ≠ .poll) :
    ∃ message, draft.response.toString = message ++ [10, 10] ∧
      message ++ [10] = draft.response.header false ++ draft.response.content ∧
      message.length + 1 = draft.textLength := by
  obtain ⟨body, hbody⟩ : ∃ body, text 59 10 draft.lines = body ++ [10] :=
    text_concat hproper.lines
  have hcontent : draft.response.content = body ++ [10] := hbody
  have hne : draft.response.content ≠ [] := by simp [hcontent]
  have hnl : bytes "\n" = [10] := by decide
  refine ⟨draft.response.header false ++ body, ?_, by simp [hcontent], ?_⟩
  · have hnot : ¬ (draft.response.type = .poll ∧ draft.response.content ≠ []) :=
      fun h => htype h.1
    rw [Response.toString, if_neg hnot, if_neg hne, hcontent, hnl]
    simp
  · have hlength : (text 59 10 draft.lines).length = _ := length_text hproper.fields
    rw [hbody, List.length_append, List.length_singleton] at hlength
    rw [List.length_append, length_header, Draft.textLength, ← hlength]
    omega

/-- The texts of a response that is framed. -/
theorem terminated_iff (hproper : draft.Proper) (htype : draft.type ≠ .poll) :
    Terminated 10 draft.response.toString ↔
      ¬ Blank 10 draft.tid ∧ CleanLines 10 draft.lines := by
  obtain ⟨message, htext, hmessage, -⟩ := hproper.toString htype
  have hblank : ¬ Blank 10 (message ++ [10]) ↔
      ¬ Blank 10 draft.tid ∧ CleanLines 10 draft.lines := by
    rw [hmessage, blank_header, not_or]
    exact and_congr_right fun _ => blank_text (by decide) hproper.fields hproper.two
  rw [← hblank, htext]
  constructor
  · intro ⟨message', heq, h⟩
    rwa [List.append_cancel_right heq]
  · exact fun h => ⟨message, rfl, h⟩

/-! ## What is sent -/

theorem proper_of_singleton {fields : List Bytes} (hlines : draft.lines = [fields])
    (hne : fields ≠ []) : draft.Proper where
  lines := by simp [hlines]
  fields := by simpa [hlines] using hne
  two := by simp [hlines]

theorem proper_of_map {α : Type} {l : List α} {f : α → List Bytes}
    (hlines : draft.lines = if l = [] then [[[]]] else l.map f) (htwo : ∀ a, 2 ≤ (f a).length) :
    draft.Proper := by
  by_cases hl : l = []
  · rw [if_pos hl] at hlines
    exact proper_of_singleton hlines (by simp)
  · rw [if_neg hl] at hlines
    refine ⟨by simpa [hlines] using hl, fun fields hmem => ?_, fun fields hmem => ?_⟩
    · rw [hlines] at hmem
      obtain ⟨a, -, rfl⟩ := List.mem_map.mp hmem
      have ha := htwo a
      intro hnil
      simp [hnil] at ha
    · rw [hlines] at hmem
      obtain ⟨a, -, rfl⟩ := List.mem_map.mp (List.mem_of_mem_tail hmem)
      exact htwo a

theorem Sent.proper (h : Sent draft) : draft.Proper := by
  cases h with
  | iPlayers players => exact proper_of_map rfl (fun player => le_rfl)
  | list tables => exact proper_of_map rfl (fun table => by simp [tableFields])
  | table event => cases event <;> exact proper_of_singleton rfl (by simp [tableFields])
  | _ => exact proper_of_singleton rfl (by simp)

theorem not_mem_what {error : HoxError} (h : error.Answered) : 10 ∉ error.what := by
  cases error
  case failedToWrite => exact h.elim
  case failedToGetFile => exact h.elim
  all_goals
    simp only [HoxError.what]
    decide

/-- A response to a POLL request that is not allowed has no end. -/
theorem not_terminated_poll (h : Sent draft) (htype : draft.type = .poll) :
    ¬ Terminated 10 draft.response.toString := by
  cases h with
  | error requestType error hanswered =>
    obtain rfl : requestType = .poll := htype
    have htext : (errorResponse .poll error).response.toString = error.what ++ [10] := by
      simp [Response.toString, errorResponse, Draft.response, text]
    rw [htext]
    rintro ⟨message, heq, -⟩
    have hconcat : message ++ [10, 10] = (message ++ [10]) ++ [10] := by simp
    rw [hconcat] at heq
    have hwhat := List.append_cancel_right heq
    exact not_mem_what hanswered (hwhat ▸ by simp)
  | table event => cases event <;> cases htype
  | _ => cases htype

/-- The texts of a draft leave the stream intact, and it is short enough. -/
structure Draft.Clean (draft : Draft) : Prop where
  type : draft.type ≠ .poll
  tid : ¬ Blank 10 draft.tid
  lines : CleanLines 10 draft.lines
  length : draft.textLength ≤ readUntilAllMax

/-- What the client is to read of a response. -/
def message (draft : Draft) : Bytes :=
  draft.response.toString.take (draft.response.toString.length - 2)

/-- One call of the reader, on a stream that goes on. -/
theorem readUntilAll_draft (hproper : draft.Proper) (htype : draft.type ≠ .poll)
    (hterminated : Terminated 10 draft.response.toString) (rest : Bytes) :
    readUntilAll (draft.response.toString ++ rest) =
      if draft.textLength ≤ readUntilAllMax then .ok (message draft, rest)
      else .error .limit := by
  obtain ⟨m, htext, hm, hlength⟩ := hproper.toString htype
  have hblank : ¬ Blank 10 (m ++ [10]) := by
    obtain ⟨m', heq, hblank⟩ := hterminated
    rw [htext] at heq
    rwa [List.append_cancel_right heq]
  have hmessage : message draft = m := by simp [message, htext]
  have hne : m ≠ [] := by
    intro hnil
    simp [hnil, Draft.textLength] at hlength
    omega
  rw [readUntilAll, htext, List.append_assoc, List.cons_append, List.cons_append, List.nil_append,
    readUntilAllFrom_message hblank, List.nil_append, hmessage, ← hlength]
  simp only [hne, false_or, Nat.succ_le_iff]

theorem readMessages_drafts {drafts : List Draft} (hproper : ∀ draft ∈ drafts, draft.Proper)
    (htype : ∀ draft ∈ drafts, draft.type ≠ .poll)
    (hterminated : ∀ draft ∈ drafts, Terminated 10 draft.response.toString) :
    readMessages drafts.length (drafts.flatMap fun draft => draft.response.toString) =
      .ok (drafts.map message, []) ↔ ∀ draft ∈ drafts, draft.textLength ≤ readUntilAllMax := by
  induction drafts with
  | nil => simp [readMessages]
  | cons draft drafts ih =>
    rw [List.forall_mem_cons] at hproper htype hterminated
    have hrest := ih hproper.2 htype.2 hterminated.2
    rw [List.length_cons, List.flatMap_cons, readMessages,
      readUntilAll_draft hproper.1 htype.1 hterminated.1, List.forall_mem_cons, ← hrest]
    split
    · rename_i hle
      simp only [hle, true_and, bind, Except.bind, pure, Except.pure, List.map_cons]
      cases readMessages drafts.length (drafts.flatMap fun draft => draft.response.toString) with
      | error e => simp
      | ok read => simp [Prod.ext_iff]
    · rename_i hgt
      simp [hgt, bind, Except.bind]

/-- **Event framing.** -/
theorem framed_iff {drafts : List Draft} (hsent : ∀ draft ∈ drafts, Sent draft) :
    ((∀ draft ∈ drafts, Terminated 10 draft.response.toString) ∧
      readMessages drafts.length (drafts.flatMap fun draft => draft.response.toString) =
        .ok (drafts.map message, [])) ↔
    ∀ draft ∈ drafts, draft.Clean := by
  have hproper : ∀ draft ∈ drafts, draft.Proper := fun draft hmem => (hsent draft hmem).proper
  constructor
  · intro ⟨hterminated, hread⟩
    have htype : ∀ draft ∈ drafts, draft.type ≠ .poll := fun draft hmem hpoll =>
      not_terminated_poll (hsent draft hmem) hpoll (hterminated draft hmem)
    have hlength := (readMessages_drafts hproper htype hterminated).mp hread
    intro draft hmem
    have hclean := (terminated_iff (hproper draft hmem) (htype draft hmem)).mp
      (hterminated draft hmem)
    exact ⟨htype draft hmem, hclean.1, hclean.2, hlength draft hmem⟩
  · intro hclean
    have htype : ∀ draft ∈ drafts, draft.type ≠ .poll := fun draft hmem => (hclean draft hmem).type
    have hterminated : ∀ draft ∈ drafts, Terminated 10 draft.response.toString :=
      fun draft hmem => (terminated_iff (hproper draft hmem) (htype draft hmem)).mpr
        ⟨(hclean draft hmem).tid, (hclean draft hmem).lines⟩
    exact ⟨hterminated, (readMessages_drafts hproper htype hterminated).mpr
      fun draft hmem => (hclean draft hmem).length⟩

/-- A message of two lines arrives, and so does what is sent after it. -/
theorem framed_iff_msg :
    (∀ draft ∈ [createEventMsg (bytes "red") (bytes "hi\nall") (bytes "1"), createEventPing],
      Terminated 10 draft.response.toString) ∧
    readMessages 2
      ((createEventMsg (bytes "red") (bytes "hi\nall") (bytes "1")).response.toString ++
        (createEventPing.response.toString ++ [])) =
      .ok ([bytes "op=MSG&code=0&tid=1&content=red;hi\nall", bytes "op=PING&code=0&content=PONG"],
        []) := by
  have hsent : ∀ draft ∈ [createEventMsg (bytes "red") (bytes "hi\nall") (bytes "1"),
      createEventPing], Sent draft := by
    simp only [List.forall_mem_cons, List.not_mem_nil, false_imp_iff, implies_true, and_true]
    exact ⟨.msg _ _ _, .ping⟩
  refine (framed_iff hsent).mpr ?_
  simp only [List.forall_mem_cons, List.not_mem_nil, false_imp_iff, implies_true, and_true]
  exact ⟨⟨by decide, by decide, by decide, by decide⟩, ⟨by decide, by decide, by decide, by decide⟩⟩

/-- A MSG request whose message ends the event it is sent in, and goes on with
another one. -/
def forgingRequest : Bytes :=
  bytes "op=MSG&oid=joe&msg=hi\\n\\nop=E_END\\&code=0\\&content=1;red_win;Resigned"

/-- Its message, once the escapes are read. -/
def forgingMessage : Bytes := bytes "hi\n\nop=E_END&code=0&content=1;red_win;Resigned"

/-- The client reads two events where one was sent. -/
theorem event_forged :
    (Request.parse forgingRequest).map (fun request => request.getParam (bytes "msg")) =
      .ok forgingMessage ∧
    readMessages 2 (createEventMsg (bytes "red") forgingMessage).response.toString =
      .ok ([bytes "op=MSG&code=0&content=red;hi",
        bytes "op=E_END&code=0&content=1;red_win;Resigned"], []) ∧
    ¬ Terminated 10 (createEventMsg (bytes "red") forgingMessage).response.toString := by
  refine ⟨by decide +kernel, by decide +kernel, ?_⟩
  rw [terminated_iff (Sent.msg _ _ _).proper (by decide)]
  decide +kernel

end HoxServer.Net
