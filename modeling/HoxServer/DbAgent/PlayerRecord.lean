/-
HoxServer.DbAgent.PlayerRecord — a player's record from the agent's
database to the server: `handle_DB_PLAYER_GET`, and `get_player_info` of
`hoxDbClient.cpp`.

The record goes through four layers. The agent puts `;` between the
fields, and this list is the value of a parameter; the server's reader
drops newlines, the parameters are cut at `&` with quotes and escapes,
and the fields are the tokens between the `;`s, of which empty ones are
not seen. No layer escapes what the next one reads.

The email is the last field, and nobody reads it. So it may have nearly
any byte in it; what matters is whether it makes the tokenizer throw, and
whether a `&` in it starts a parameter that the reader takes for one of
the response's own.
-/
import HoxServer.DbAgent.Response
import HoxServer.Lib.Tokens

namespace HoxServer.DbAgent

open Lib HoxServer.Net

/-! ## Records -/

/-- A record that `hoxDBAPI::get_player_info` finds: the numbers are `int`s,
and the score is not negative. -/
structure Record where
  id : Bytes
  hpw : Bytes
  email : Bytes
  score : Int
  wins : Int
  draws : Int
  losses : Int
  score_nonneg : 0 ≤ score
  score_int : toInt32 score = score
  wins_int : toInt32 wins = wins
  draws_int : toInt32 draws = draws
  losses_int : toInt32 losses = losses

namespace Record

variable {record : Record} {rest : Bytes} {uninitialized : Int}

/-- The player as the server is to have it. -/
def info (record : Record) : PlayerInfo :=
  { id := record.id, hpw := record.hpw, score := record.score, wins := record.wins
    draws := record.draws, losses := record.losses }

/-- What `handle_DB_PLAYER_GET` prints. -/
def text (record : Record) : Bytes :=
  record.id ++ bytes ";" ++ intToString record.score ++ bytes ";" ++
    intToString record.wins ++ bytes ";" ++ intToString record.draws ++ bytes ";" ++
    intToString record.losses ++ bytes ";" ++ record.hpw ++ bytes ";" ++ record.email

/-- `handle_DB_PLAYER_GET`. -/
def handleDbPlayerGet (record : Record) : Response :=
  { type := .dbPlayerGet, content := record.text ++ bytes "\n\n" }

/-- The server gets the record: `get_player_info` stores it into the player. -/
def Returns (record : Record) (uninitialized : Int) (rest : Bytes) : Prop :=
  readPlayerInfo record.id uninitialized ((handleDbPlayerGet record).toString ++ rest) =
    .ok (.ok record.info)

/-- What is printed before the email. -/
def front (record : Record) : Bytes :=
  record.id ++ 59 :: (intToString record.score ++ 59 :: (intToString record.wins ++ 59 ::
    (intToString record.draws ++ 59 :: (intToString record.losses ++ 59 ::
      (record.hpw ++ [59])))))

/-- What the tokenizer makes of the email: the rest of the content, and the
parameters that come after it. -/
def emailFields (record : Record) : List Bytes :=
  ((separator.fieldsFrom false [] (visible record.email)).toOption).getD []

/-- The value that the email gives a parameter of this name. -/
def emailValue (record : Record) (name : Bytes) : Option Bytes :=
  lastValue name record.emailFields.tail

/-- Nothing in the id and the hash is read by one of the layers. -/
structure CleanFields (record : Record) : Prop where
  id : 59 ∉ record.id ∧ PlainValue record.id
  hpw : 59 ∉ record.hpw ∧ PlainValue record.hpw

/-- What the server finds in the place of the content: the record, unless the
id is missing or the email is seen in the place of an empty hash; or
what the email has as its own content. -/
def ContentReturns (record : Record) : Prop :=
  (record.emailValue (bytes "content") = none →
    record.id ≠ [] ∧ (record.hpw = [] → ∀ c ∈ record.emailFields.headD [], c = 59)) ∧
  ∀ value ∈ record.emailValue (bytes "content"), parseStrPlayerInfo value = record.info

instance (record : Record) : Decidable record.ContentReturns :=
  inferInstanceAs (Decidable (_ ∧ _))

/-- The email does no harm: the tokenizer does not throw on it, and the
parameters that it adds leave the type, the code and the content. -/
structure Clean (record : Record) (uninitialized : Int) : Prop extends CleanFields record where
  escaped : separator.WellEscaped (visible record.email)
  type : ∀ value ∈ record.emailValue (bytes "op"), stringToRequestType value = .dbPlayerGet
  code : ∀ value ∈ record.emailValue (bytes "code"), convertTo value uninitialized = 0
  content : record.ContentReturns
  short : ((handleDbPlayerGet record).header ++ record.front ++ visible record.email).length <
    networkMaxMsgSize

theorem text_eq (record : Record) : record.text = record.front ++ record.email := by
  have hsemicolon : bytes ";" = [59] := by decide
  simp [text, front, hsemicolon]

theorem toString_append (record : Record) (rest : Bytes) :
    (handleDbPlayerGet record).toString ++ rest =
      (handleDbPlayerGet record).header ++ record.text ++ 10 :: 10 :: rest := by
  have hends : bytes "\n\n" = [10, 10] := by decide
  simp [Response.toString, handleDbPlayerGet, hends]

/-! ## The fields of a message -/

/-- The tokens after the id. -/
theorem tokens_numbers (record : Record) (x : Bytes) : Net.tokens 59
    (intToString record.score ++ 59 :: (intToString record.wins ++ 59 ::
      (intToString record.draws ++ 59 :: (intToString record.losses ++ 59 :: x)))) =
    intToString record.score :: intToString record.wins :: intToString record.draws ::
      intToString record.losses :: Net.tokens 59 x := by
  have hstep : ∀ (n : Int) (y : Bytes), Net.tokens 59 (intToString n ++ 59 :: y) =
      intToString n :: Net.tokens 59 y := by
    intro n y
    obtain ⟨hne, hsep⟩ := @intToString_token 59 (by decide) n
    exact tokens_append hne hsep
  rw [hstep, hstep, hstep, hstep]

/-- What is in the place of the hash. -/
theorem hpw_token_iff {x : Bytes} (hhpw : 59 ∉ record.hpw) :
    (Net.tokens 59 (record.hpw ++ 59 :: x))[0]?.getD [] = record.hpw ↔
      (record.hpw = [] → ∀ c ∈ x, c = 59) := by
  by_cases hne : record.hpw = []
  · have htokens : Net.tokens 59 ([] ++ 59 :: x) = Net.tokens 59 x := tokens_separator
    rw [hne, htokens, ← tokens_eq_nil_iff]
    simp only [forall_const]
    cases hx : Net.tokens 59 x with
    | nil =>
      refine iff_of_true rfl ?_
      exact hx
    | cons token tokens =>
      have htoken : token ≠ [] := (of_mem_tokens (hx ▸ List.mem_cons_self)).1
      refine iff_of_false (by simpa using htoken) ?_
      intro hnil
      rw [show Lib.tokens 59 x = Net.tokens 59 x from rfl, hx] at hnil
      exact absurd hnil (List.cons_ne_nil _ _)
  · have htokens : Net.tokens 59 (record.hpw ++ 59 :: x) = record.hpw :: Net.tokens 59 x :=
      tokens_append hne hhpw
    rw [htokens]
    exact iff_of_true rfl fun h => absurd h hne

/-- The list of fields is read back as the record, whatever is in the place
of the email. -/
theorem parseStrPlayerInfo_front {x : Bytes} (hid : 59 ∉ record.id) (hhpw : 59 ∉ record.hpw) :
    parseStrPlayerInfo (record.front ++ x) = record.info ↔
      record.id ≠ [] ∧ (record.hpw = [] → ∀ c ∈ x, c = 59) := by
  have hfront : record.front ++ x = record.id ++ 59 :: (intToString record.score ++ 59 ::
      (intToString record.wins ++ 59 :: (intToString record.draws ++ 59 ::
        (intToString record.losses ++ 59 :: (record.hpw ++ 59 :: x))))) := by
    simp [front]
  by_cases hne : record.id = []
  · -- the score is in the place of the id
    refine iff_of_false (fun h => ?_) fun h => h.1 hne
    have hread := congrArg PlayerInfo.id h
    have htext : ∃ l, Net.tokens 59 (record.front ++ x) = intToString record.score :: l := by
      rw [hfront, hne]
      exact ⟨_, tokens_separator.trans (tokens_numbers record _)⟩
    obtain ⟨l, hl⟩ := htext
    simp only [parseStrPlayerInfo, hl, info, hne] at hread
    exact intToString_ne_nil record.score hread
  · have htext : Net.tokens 59 (record.front ++ x) = record.id :: intToString record.score ::
        intToString record.wins :: intToString record.draws :: intToString record.losses ::
          Net.tokens 59 (record.hpw ++ 59 :: x) := by
      rw [hfront, ← tokens_numbers record (record.hpw ++ 59 :: x)]
      exact tokens_append hne hid
    rw [← hpw_token_iff hhpw, and_iff_right hne]
    simp [parseStrPlayerInfo, htext, info, atoi_intToString, record.score_int, record.wins_int,
      record.draws_int, record.losses_int]

/-! ## The marked bytes -/

theorem plain_newline : separator.IsPlain separator.newline := by decide

theorem countP_plain {x : Bytes} (h : separator.Plain x) : x.countP separator.isMarked = 0 :=
  Separator.plain_iff_countP.mp h

/-- The bytes that the parser reads are those of the id, the hash and the
email. -/
theorem countP_text (hemail : PlainValue record.email) :
    record.text.countP separator.isMarked =
      record.id.countP separator.isMarked + record.hpw.countP separator.isMarked := by
  have hsemicolon : separator.isMarked 59 = false := by decide
  have hnumber : ∀ n, (intToString n).countP separator.isMarked = 0 :=
    fun n => countP_plain (plain_intToString n)
  have hmail := countP_plain (plainValue_iff.mp hemail).2
  rw [text_eq, front]
  simp [List.countP_append, hsemicolon, hnumber, hmail]

/-- The places of the id and the hash. -/
theorem tokens_of_parse {content : Bytes} (h : parseStrPlayerInfo content = record.info) :
    (Net.tokens 59 content)[0]?.getD [] = record.id ∧
      (Net.tokens 59 content)[5]?.getD [] = record.hpw :=
  ⟨congrArg PlayerInfo.id h, congrArg PlayerInfo.hpw h⟩

/-- The id and the hash are two tokens. -/
theorem countP_tokens_le {content : Bytes} (h : parseStrPlayerInfo content = record.info) :
    record.id.countP separator.isMarked + record.hpw.countP separator.isMarked ≤
      content.countP separator.isMarked := by
  obtain ⟨hid, hhpw⟩ := tokens_of_parse h
  have hsum : ((Net.tokens 59 content).map (List.countP separator.isMarked)).sum ≤
      content.countP separator.isMarked := sum_countP_tokens_le _
  rw [← hid, ← hhpw]
  refine le_trans ?_ hsum
  match Net.tokens 59 content with
  | [] | [_] | [_, _] | [_, _, _] | [_, _, _, _] | [_, _, _, _, _] => simp
  | _ :: _ :: _ :: _ :: _ :: _ :: _ =>
    simp
    omega

/-- What the server reads as the id or the hash has no byte that the content
has not. -/
theorem mem_content {content : Bytes} (h : parseStrPlayerInfo content = record.info) {c : UInt8}
    (hc : c ∈ record.id ∨ c ∈ record.hpw) : c ∈ content := by
  have htoken : ∀ i : ℕ, c ∈ (Net.tokens 59 content)[i]?.getD [] → c ∈ content := by
    intro i hmem
    cases hi : (Net.tokens 59 content)[i]? with
    | none => simp [hi] at hmem
    | some token =>
      rw [hi] at hmem
      exact mem_of_mem_tokens (List.mem_of_getElem? hi) hmem
  obtain ⟨hid, hhpw⟩ := tokens_of_parse h
  rw [← hid, ← hhpw] at hc
  exact hc.elim (htoken 0) (htoken 5)

/-- Nor a `;`. -/
theorem not_mem_fields {content : Bytes} (h : parseStrPlayerInfo content = record.info) :
    59 ∉ record.id ∧ 59 ∉ record.hpw := by
  have htoken : ∀ i : ℕ, 59 ∉ (Net.tokens 59 content)[i]?.getD [] := by
    intro i
    cases hi : (Net.tokens 59 content)[i]? with
    | none => simp
    | some token => exact (of_mem_tokens (List.mem_of_getElem? hi)).2
  obtain ⟨hid, hhpw⟩ := tokens_of_parse h
  rw [← hid, ← hhpw]
  exact ⟨htoken 0, htoken 5⟩

/-! ## Reading a record -/

/-- What comes back is the record: the answer is parsed, it is one to this
request with the code 0, and its content is the record. -/
theorem returns_iff_answer : record.Returns uninitialized rest ↔
    ∃ response, Request.parse (answer (record.handleDbPlayerGet.toString ++ rest)) = .ok response ∧
      response.type = .dbPlayerGet ∧
      convertTo (response.getParam (bytes "code")) uninitialized = 0 ∧
      parseStrPlayerInfo (response.getParam (bytes "content")) = record.info := by
  unfold Returns readPlayerInfo hoxRequest
  cases Request.parse (answer (record.handleDbPlayerGet.toString ++ rest)) with
  | error e => simp [Except.mapError, bind, Except.bind]
  | ok response =>
    have hcodes : resultCode .ok = 0 ∧ resultCode .notFound ≠ 0 := by decide
    simp only [Except.mapError, bind, Except.bind, hcodes.1, pure, Except.pure]
    have hid : parseStrPlayerInfo (response.getParam (bytes "content")) = record.info →
        (parseStrPlayerInfo (response.getParam (bytes "content"))).id = record.id := fun h => by
      rw [h]
      rfl
    grind

/-- What is read of a record. -/
theorem answer_record (record : Record) (rest : Bytes) :
    answer (record.handleDbPlayerGet.toString ++ rest) =
      if (record.handleDbPlayerGet.header ++ visible record.text).length < networkMaxMsgSize then
        record.handleDbPlayerGet.header ++ visible record.text
      else [] := by
  rw [toString_append, answer_visible, visible_append (header_clean _).1]

/-- The content of a parsed text, if it is the record, has all the bytes
that the parser reads, so there are none. -/
theorem plain_of_parse {response : Request RequestType} {x : Bytes}
    (hparse : Request.parse (record.handleDbPlayerGet.header ++ x) = .ok response)
    (hcontent : parseStrPlayerInfo (response.getParam (bytes "content")) = record.info)
    (hle : x.countP separator.isMarked ≤ record.text.countP separator.isMarked)
    (hemail : PlainValue record.email) : separator.Plain x := by
  have hmarks := countP_tokens_le hcontent
  rw [← countP_text hemail] at hmarks
  have hread : ∃ read, separator.fieldsFrom false (bytes "content=") x = .ok read := by
    rw [Request.parse, parseNetworkMessage] at hparse
    obtain ⟨tokens, htokens, -⟩ := map_eq_ok.mp hparse
    rw [fields_header] at htokens
    obtain ⟨read, hread, -⟩ := map_eq_ok.mp htokens
    exact ⟨read, hread⟩
  obtain ⟨read, hread⟩ := hread
  rcases getParam_content hparse hread with hnil | ⟨g, hg, hvalue⟩
  · rw [hnil, List.countP_nil] at hmarks
    exact Separator.plain_iff_countP.mpr (by omega)
  · refine Separator.plain_of_mem plain_newline (by decide) hread hg ?_
    have hcount : (response.getParam (bytes "content")).countP separator.isMarked ≤
        g.countP separator.isMarked := by
      have hsnd : (nameValue g).2 = response.getParam (bytes "content") :=
        congrArg Prod.snd hvalue
      rw [← hsnd]
      exact (((List.tail_sublist _).trans (List.dropWhile_sublist _)).countP_le)
    omega

/-- What is read of a record that comes back has nothing that a layer reads,
where the email is plain. -/
theorem Returns.cleanFields (hemail : PlainValue record.email)
    (h : record.Returns uninitialized rest) : record.CleanFields := by
  obtain ⟨response, hparse, htype, -, hcontent⟩ := returns_iff_answer.mp h
  rw [answer_record] at hparse
  split at hparse
  · have hle : (visible record.text).countP separator.isMarked ≤
        record.text.countP separator.isMarked := (visibleFrom_sublist false _).countP_le
    have hplain := plain_of_parse hparse hcontent hle hemail
    have hsame := (parse_plain record.handleDbPlayerGet hplain).symm.trans hparse
    cases hsame
    rw [(getParam_parameters _ _).2] at hcontent
    -- the id and the hash are in what is read
    obtain ⟨hid, hhpw⟩ := not_mem_fields hcontent
    have hnewline := not_mem_visibleFrom false record.text
    exact ⟨⟨hid, plainValue_iff.mpr ⟨fun hc => hnewline (mem_content hcontent (Or.inl hc)),
        fun c hc => hplain c (mem_content hcontent (Or.inl hc))⟩⟩,
      hhpw, plainValue_iff.mpr ⟨fun hc => hnewline (mem_content hcontent (Or.inr hc)),
        fun c hc => hplain c (mem_content hcontent (Or.inr hc))⟩⟩
  · cases hparse
    cases htype

theorem plainValue_front (h : record.CleanFields) : PlainValue record.front := by
  obtain ⟨⟨-, hid⟩, -, hhpw⟩ := h
  have hsemicolon : plainByte 59 = true := by decide
  have hnumber : ∀ n, (intToString n).all plainByte = true := fun n =>
    plainValue_iff.mpr ⟨not_mem_intToString (by decide) n, plain_intToString n⟩
  unfold PlainValue at hid hhpw ⊢
  rw [front]
  simp only [List.all_append, List.all_cons, List.all_nil, hsemicolon, hnumber, hid, hhpw,
    Bool.and_self]

/-- The text of a record whose id and hash are clean, as parameters: those of
the response, with what the email adds to them. -/
theorem parse_record (h : record.CleanFields) :
    Request.parse (record.handleDbPlayerGet.header ++ (record.front ++ visible record.email)) =
      (separator.fieldsFrom false [] (visible record.email)).map fun read =>
        read.tail.foldl (Request.take stringToRequestType)
          ⟨.dbPlayerGet, parameters (record.front ++ read.headD [])⟩ := by
  have hplain := (plainValue_iff.mp (plainValue_front h)).2
  rw [Request.parse, parseNetworkMessage, fields_header, Separator.fieldsFrom_append hplain,
    ← List.append_nil (bytes "content=" ++ record.front), Separator.fieldsFrom_front]
  cases hread : separator.fieldsFrom false [] (visible record.email) with
  | error e => rfl
  | ok read =>
    obtain ⟨g, gs, rfl⟩ := Separator.fieldsFrom_cons hread
    have hop : Request.take stringToRequestType ⟨.unknown, SortedMap.empty⟩
        (bytes "op=" ++ requestTypeToString .dbPlayerGet) = ⟨.dbPlayerGet, SortedMap.empty⟩ := by
      decide
    have hcode : Request.take stringToRequestType ⟨.dbPlayerGet, SortedMap.empty⟩
        (bytes "code=0") = ⟨.dbPlayerGet, SortedMap.empty.set (bytes "code") (bytes "0")⟩ := rfl
    have hcontent : Request.take stringToRequestType
        ⟨.dbPlayerGet, SortedMap.empty.set (bytes "code") (bytes "0")⟩
        (bytes "content=" ++ record.front ++ g) =
          ⟨.dbPlayerGet, parameters (record.front ++ g)⟩ := by
      have hname : bytes "content=" ++ record.front ++ g =
          bytes "content" ++ 61 :: (record.front ++ g) := by
        have heq : bytes "content=" = bytes "content" ++ [61] := by decide
        simp [heq]
      have hset : (SortedMap.empty.set (bytes "code") (bytes "0")).set (bytes "content")
          (record.front ++ g) = parameters (record.front ++ g) :=
        SortedMap.ext (SortedMap.insert_of_lt fun e he => by
          rw [List.mem_singleton.mp he]
          exact code_lt_content)
      have hop : bytes "content" ≠ bytes "op" := by decide
      rw [hname, Request.take, nameValue_append (by decide), if_neg hop, Request.setParam, hset]
    have htype : record.handleDbPlayerGet.type = .dbPlayerGet := rfl
    rw [htype]
    simp only [Except.map, List.modifyHead_cons, List.foldl_cons, hop, hcode, hcontent,
      List.tail_cons, List.headD_cons]

/-- What the server has in the end, where the email has these fields. -/
theorem content_returns_iff (h : record.CleanFields) {g : Bytes} {gs : List Bytes}
    (hread : separator.fieldsFrom false [] (visible record.email) = .ok (g :: gs)) :
    parseStrPlayerInfo ((lastValue (bytes "content") gs).getD (record.front ++ g)) = record.info ↔
      record.ContentReturns := by
  have hfields : record.emailFields = g :: gs := by
    rw [emailFields, hread]
    rfl
  unfold ContentReturns emailValue
  rw [hfields, List.tail_cons, List.headD_cons]
  cases lastValue (bytes "content") gs with
  | none => simpa using parseStrPlayerInfo_front (x := g) h.id.1 h.hpw.1
  | some value => simp

/-- **When a record comes back** whose id and hash are clean. -/
theorem returns_iff_of_cleanFields (h : record.CleanFields) :
    record.Returns uninitialized rest ↔ record.Clean uninitialized := by
  have hnewline := (plainValue_iff.mp (plainValue_front h)).1
  have hzero : convertTo (bytes "0") uninitialized = 0 := by
    have hnumber : leadingInt (bytes "0") = some 0 := by decide
    simp [convertTo, hnumber, toInt32]
  rw [returns_iff_answer, answer_record, text_eq, visible_append hnewline, ← List.append_assoc]
  by_cases hshort : (record.handleDbPlayerGet.header ++ record.front ++
      visible record.email).length < networkMaxMsgSize
  · rw [if_pos hshort, List.append_assoc, parse_record h]
    cases hread : separator.fieldsFrom false [] (visible record.email) with
    | error e =>
      refine iff_of_false (by simp [Except.map]) fun hclean => ?_
      obtain ⟨read, hread'⟩ := Separator.fieldsFrom_isOk.mpr hclean.escaped
      rw [hread] at hread'
      cases hread'
    | ok read =>
      obtain ⟨g, gs, rfl⟩ := Separator.fieldsFrom_cons hread
      have hfields : record.emailFields = g :: gs := by
        rw [emailFields, hread]
        rfl
      have hcode : bytes "code" ≠ bytes "op" := by decide
      have hcontent : bytes "content" ≠ bytes "op" := by decide
      obtain ⟨hcode0, hcontent0⟩ := getParam_parameters .dbPlayerGet (record.front ++ g)
      have hvalue : ∀ name, record.emailValue name = lastValue name gs := fun name => by
        rw [emailValue, hfields, List.tail_cons]
      have htype : ((lastValue (bytes "op") gs).map stringToRequestType).getD .dbPlayerGet =
          .dbPlayerGet ↔ ∀ value ∈ lastValue (bytes "op") gs,
            stringToRequestType value = .dbPlayerGet := by
        cases lastValue (bytes "op") gs <;> simp
      have hnumber : convertTo ((lastValue (bytes "code") gs).getD (bytes "0")) uninitialized = 0 ↔
          ∀ value ∈ lastValue (bytes "code") gs, convertTo value uninitialized = 0 := by
        cases lastValue (bytes "code") gs <;> simp [hzero]
      simp only [Except.map, Except.ok.injEq, exists_eq_left', List.tail_cons, List.headD_cons,
        type_foldl_take, getParam_foldl_take hcode, getParam_foldl_take hcontent, hcode0,
        hcontent0]
      rw [htype, hnumber, content_returns_iff h hread]
      simp only [← hvalue]
      constructor
      · rintro ⟨htype, hcode, hcontent⟩
        exact ⟨h, Separator.fieldsFrom_isOk.mp ⟨_, hread⟩, htype, hcode, hcontent, hshort⟩
      · rintro ⟨-, -, htype, hcode, hcontent, -⟩
        exact ⟨htype, hcode, hcontent⟩
  · rw [if_neg hshort]
    refine iff_of_false ?_ fun hclean => hshort hclean.short
    rintro ⟨response, hparse, htype, -⟩
    cases hparse
    cases htype

/-- **When a record comes back**: when nothing in its id and its hash is read
by one of the layers, and the email does no harm. This is the exact
condition for a record with a clean id and hash, whatever its email, and
for one with a plain email, whatever its id and hash. -/
theorem returns_iff (record : Record) (uninitialized : Int) (rest : Bytes) :
    (record.Clean uninitialized → record.Returns uninitialized rest) ∧
      (record.CleanFields ∨ PlainValue record.email →
        (record.Returns uninitialized rest ↔ record.Clean uninitialized)) := by
  refine ⟨fun h => (returns_iff_of_cleanFields h.toCleanFields).mpr h, ?_⟩
  rintro (hfields | hemail)
  · exact returns_iff_of_cleanFields hfields
  · exact ⟨fun h => (returns_iff_of_cleanFields (h.cleanFields hemail)).mp h,
      fun h => (returns_iff_of_cleanFields h.toCleanFields).mpr h⟩

/-- A new player, with this hash and this email. -/
def joe (hpw : Bytes) (email : Bytes := bytes "joe@mail") : Record :=
  { id := bytes "joe", hpw, email, score := 1500, wins := 0, draws := 0
    losses := 0, score_nonneg := by decide, score_int := by decide, wins_int := by decide
    draws_int := by decide, losses_int := by decide }

theorem cleanFields_joe (email : Bytes) : (joe (bytes "sesame") email).CleanFields := by
  have hid : 59 ∉ bytes "joe" ∧ PlainValue (bytes "joe") := by decide +kernel
  have hhpw : 59 ∉ bytes "sesame" ∧ PlainValue (bytes "sesame") := by decide +kernel
  exact ⟨hid, hhpw⟩

/-- An email with a `&` and quotes. -/
theorem clean_joe : (joe (bytes "sesame") (bytes "\"joe\" o&neil@mail")).Clean 0 where
  toCleanFields := cleanFields_joe _
  escaped := by decide +kernel
  type := by decide +kernel
  code := by decide +kernel
  content := by decide +kernel
  short := by decide +kernel

/-- It comes back, but not with an email that adds a code. -/
theorem returns_iff_joe :
    (joe (bytes "sesame") (bytes "\"joe\" o&neil@mail")).Returns 0 [] ∧
      ¬ (joe (bytes "sesame") (bytes "joe&code=1")).Returns 0 [] :=
  ⟨(returns_iff (joe (bytes "sesame") (bytes "\"joe\" o&neil@mail")) 0 []).1 clean_joe,
    fun h => absurd (((returns_iff (joe (bytes "sesame") (bytes "joe&code=1")) 0 []).2
      (Or.inl (cleanFields_joe _))).mp h).code (by decide +kernel)⟩

/-- Without a hash the email is the hash, and a hash is cut at its `;`. -/
theorem hash_misread :
    readPlayerInfo (bytes "joe") 0 (joe []).handleDbPlayerGet.toString =
        .ok (.ok { (joe []).info with hpw := bytes "joe@mail" }) ∧
      readPlayerInfo (bytes "joe") 0 (joe (bytes "open;sesame")).handleDbPlayerGet.toString =
        .ok (.ok { (joe []).info with hpw := bytes "open" }) ∧
      ¬ (joe []).Returns 0 [] ∧ ¬ (joe (bytes "open;sesame")).Returns 0 [] := by
  have hemail : ∀ hpw, PlainValue (joe hpw).email := fun hpw => by
    have hplain : PlainValue (bytes "joe@mail") := by decide +kernel
    exact hplain
  refine ⟨by decide +kernel, by decide +kernel, fun h => ?_, fun h => ?_⟩
  · have hfields := h.cleanFields (hemail _)
    exact absurd ((returns_iff_of_cleanFields hfields).mp h).content (by decide +kernel)
  · exact absurd (h.cleanFields (hemail _)).hpw.1 (by decide +kernel)

end Record

end HoxServer.DbAgent
