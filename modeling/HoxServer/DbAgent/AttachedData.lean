/-
HoxServer.DbAgent.AttachedData — the data that follows a response of the
agent: the two loops of `read_nbytes`, and a file from the agent's
`handle_HTTP_GET` to the server's `get_http_file`.

The agent tests the length before a read, the server after one. So the
server never sees that no byte is wanted: it reads on to the end of the
stream. The length itself goes over the wire as a number, which the
server reads with `atoi`.
-/
import HoxServer.DbAgent.Response

namespace HoxServer.DbAgent

open Lib HoxServer.Net

variable {nBytes : ℕ} {sResult input content rest : Bytes}

/-! ## The loops -/

/-- The loop of the agent's `read_nbytes`, which has read `sResult`. -/
def readNbytesFrom (nBytes : ℕ) (sResult : Bytes) : Bytes → Result × Bytes × Bytes
  | [] => (if sResult.length < nBytes then .err else .ok, sResult, [])
  | c :: input =>
    if sResult.length < nBytes then readNbytesFrom nBytes (sResult ++ [c]) input
    else (.ok, sResult, c :: input)

/-- `hoxSocketAPI::read_nbytes` of the agent. -/
def readNbytes (nBytes : ℕ) (input : Bytes) : Result × Bytes × Bytes :=
  readNbytesFrom nBytes [] input

theorem readNbytesFrom_eq (h : nBytes ≤ sResult.length + input.length)
    (hle : sResult.length ≤ nBytes) : readNbytesFrom nBytes sResult input =
      (.ok, sResult ++ input.take (nBytes - sResult.length),
        input.drop (nBytes - sResult.length)) := by
  induction input generalizing sResult with
  | nil =>
    simp only [List.length_nil, Nat.add_zero] at h
    rw [readNbytesFrom, if_neg (not_lt.mpr h)]
    simp
  | cons c input ih =>
    rw [readNbytesFrom]
    split
    · rename_i hlt
      obtain ⟨k, hk⟩ := Nat.exists_eq_add_of_lt hlt
      simp only [List.length_cons] at h
      rw [ih (by simp; omega) (by simp; omega)]
      have hrest : nBytes - (sResult ++ [c]).length = k := by simp; omega
      have hall : nBytes - sResult.length = k + 1 := by omega
      rw [hrest, hall]
      simp
    · rename_i hge
      have hzero : nBytes - sResult.length = 0 := by omega
      rw [hzero]
      simp

/-- The agent reads so many bytes, and no more. -/
theorem readNbytes_eq (h : nBytes ≤ input.length) :
    readNbytes nBytes input = (.ok, input.take nBytes, input.drop nBytes) := by
  rw [readNbytes, readNbytesFrom_eq (by simpa using h) (Nat.zero_le _)]
  simp

/-- The server does the same once it needs a byte. -/
theorem server_readNbytesFrom_eq (h : nBytes ≤ sResult.length + input.length)
    (hlt : sResult.length < nBytes) : Net.readNbytesFrom nBytes sResult input =
      (.ok, sResult ++ input.take (nBytes - sResult.length),
        input.drop (nBytes - sResult.length)) := by
  induction input generalizing sResult with
  | nil =>
    simp only [List.length_nil, Nat.add_zero] at h
    exact absurd h (not_le.mpr hlt)
  | cons c input ih =>
    obtain ⟨k, hk⟩ := Nat.exists_eq_add_of_lt hlt
    simp only [List.length_cons] at h
    have hall : nBytes - sResult.length = k + 1 := by omega
    rw [Net.readNbytesFrom, hall]
    split
    · rename_i heq
      simp only [List.length_append, List.length_cons, List.length_nil] at heq
      have hk0 : k = 0 := by omega
      subst hk0
      simp
    · rename_i hne
      simp only [List.length_append, List.length_cons, List.length_nil] at hne
      rw [ih (by simp; omega) (by simp; omega)]
      have hrest : nBytes - (sResult ++ [c]).length = k := by simp; omega
      rw [hrest]
      simp

theorem server_readNbytes_iff (h : nBytes ≤ input.length) :
    Net.readNbytes nBytes input = (.ok, input.take nBytes, input.drop nBytes) ↔ 0 < nBytes := by
  constructor
  · intro hread
    have hok : (Net.readNbytes nBytes input).1 = .ok := by rw [hread]
    exact (readNbytes_ok.mp hok).1
  · intro hpos
    rw [Net.readNbytes, server_readNbytesFrom_eq (by simpa using h) (by simpa using hpos)]
    simp

/-! ## Files -/

/-- `handle_HTTP_GET` on a file with this content. -/
def handleHttpGet (sContent : Bytes) : Response :=
  { type := .httpGet, content := natToString sContent.length ++ bytes "\n\n" ++ sContent }

/-- What the agent sends of a file, and what follows. -/
theorem handleHttpGet_toString : (handleHttpGet content).toString ++ rest =
    ((handleHttpGet content).header ++ intToString content.length) ++
      10 :: 10 :: (content ++ rest) := by
  have hends : bytes "\n\n" = [10, 10] := by decide
  simp [Response.toString, handleHttpGet, hends, intToString]

theorem length_natToString (n : ℕ) {k : ℕ} (hk : 0 < k) (h : n < 10 ^ k) :
    (natToString n).length ≤ k := by
  rw [natToString, List.length_map]
  exact (Nat.length_toDigits_le_iff (by decide) hk).mpr h

/-- The size as the server reads it. -/
theorem toSizeT_atoi_iff (n : ℕ) : toSizeT (atoi (intToString n)) = n ↔
    n < 2147483648 ∨ n = 18446744073709551615 := by
  unfold atoi toSizeT toInt32
  rw [leadingInt_intToString, Option.getD_some]
  omega

/-- What is read has the length that is wanted. -/
theorem length_server_readNbytes (h : (Net.readNbytes nBytes input).1 = .ok) :
    (Net.readNbytes nBytes input).2.1.length = nBytes := by
  obtain ⟨hpos, hle⟩ := readNbytes_ok.mp h
  rw [(server_readNbytes_iff hle).mpr hpos]
  exact List.length_take_of_le hle

theorem httpFile_eq_iff {response : Request RequestType} (htype : response.type = .httpGet)
    (hcode : response.getParam (bytes "code") = bytes "0")
    (hcontent : response.getParam (bytes "content") = intToString content.length) :
    httpFile response (content ++ rest) = (.ok, content, rest) ↔
      0 < content.length ∧
        (content.length < 2147483648 ∨ content.length = 18446744073709551615) := by
  rw [← toSizeT_atoi_iff, httpFile, if_neg (not_not.mpr htype), if_neg (not_not.mpr hcode),
    hcontent]
  generalize toSizeT (atoi (intToString content.length)) = nBytes
  constructor
  · intro h
    have hok : (Net.readNbytes nBytes (content ++ rest)).1 = .ok := by
      by_contra hne
      have hresult := congrArg Prod.fst h
      simp [hne] at hresult
    have hread : (Net.readNbytes nBytes (content ++ rest)).2.1 = content := congrArg (·.2.1) h
    have hlength := length_server_readNbytes hok
    rw [hread] at hlength
    exact ⟨hlength ▸ (readNbytes_ok.mp hok).1, hlength.symm⟩
  · rintro ⟨hpos, rfl⟩
    have hlength : content.length ≤ (content ++ rest).length := by simp
    rw [(server_readNbytes_iff hlength).mpr hpos]
    simp

/-- The answer is the text before the two newlines. -/
theorem readHttpFile_of_short (hshort : ((handleHttpGet content).header ++
    intToString content.length).length < networkMaxMsgSize) :
    readHttpFile ((handleHttpGet content).toString ++ rest) = .ok (httpFile
      ⟨.httpGet, parameters (intToString content.length)⟩ (content ++ rest)) := by
  have hheader := header_clean (handleHttpGet content)
  have hclean : 10 ∉ (handleHttpGet content).header ++ intToString content.length :=
    fun h => (List.mem_append.mp h).elim hheader.1 (not_mem_intToString (by decide) _)
  have hne : (handleHttpGet content).header ++ intToString content.length ≠ [] := by
    simp [intToString, natToString_ne_nil]
  have hsend : ∀ rest, sendRequestOverSocket (((handleHttpGet content).header ++
      intToString content.length) ++ 10 :: 10 :: rest) =
        (.ok, (handleHttpGet content).header ++ intToString content.length, rest) :=
    fun _ => sendRequestOverSocket_append hne hclean hshort
  have hparse := parse_plain (handleHttpGet content) (plain_intToString content.length)
  have htype : serverType (handleHttpGet content).type = .httpGet := by
    show serverType .httpGet = .httpGet
    decide
  rw [handleHttpGet_toString, readHttpFile, answer, hsend, hoxRequest, hparse, htype]
  rfl

/-- A size of too many digits is not read. -/
theorem readHttpFile_of_long (hlong : networkMaxMsgSize ≤ ((handleHttpGet content).header ++
    intToString content.length).length) :
    readHttpFile ((handleHttpGet content).toString ++ rest) ≠ .ok (.ok, content, rest) := by
  have hheader := header_clean (handleHttpGet content)
  have hclean : 10 ∉ (handleHttpGet content).header ++ intToString content.length :=
    fun h => (List.mem_append.mp h).elim hheader.1 (not_mem_intToString (by decide) _)
  have hanswer : answer ((handleHttpGet content).toString ++ rest) = [] := by
    rw [handleHttpGet_toString, answer_long hclean hlong]
  intro h
  rw [readHttpFile, hanswer] at h
  have hresult := congrArg (Except.map Prod.fst) h
  cases hresult

/-- **The readers of attached data.** The agent reads every number of bytes
that the stream has, the server every one but none; and a file gets
through, with the stream left at what follows it, exactly when it is not
empty and its size is that of an `int`. (The second number is read as -1
and is this `size_t` again; no string is as long.) -/
theorem attached_data_iff (h : nBytes ≤ input.length) :
    readNbytes nBytes input = (.ok, input.take nBytes, input.drop nBytes) ∧
    (Net.readNbytes nBytes input = (.ok, input.take nBytes, input.drop nBytes) ↔ 0 < nBytes) ∧
    (readHttpFile ((handleHttpGet content).toString ++ rest) = .ok (.ok, content, rest) ↔
      0 < content.length ∧
        (content.length < 2147483648 ∨ content.length = 18446744073709551615)) := by
  refine ⟨readNbytes_eq h, server_readNbytes_iff h, ?_⟩
  have hheader := header_clean (handleHttpGet content)
  by_cases hshort : ((handleHttpGet content).header ++
      intToString content.length).length < networkMaxMsgSize
  · obtain ⟨hcode, hcontent⟩ := getParam_parameters .httpGet (intToString content.length)
    rw [readHttpFile_of_short hshort, Except.ok.injEq]
    exact httpFile_eq_iff rfl hcode hcontent
  · refine iff_of_false (readHttpFile_of_long (not_lt.mp hshort)) ?_
    rintro ⟨-, hsize⟩
    -- twenty digits are enough for such a size
    have hdigits : (intToString content.length).length ≤ 20 :=
      length_natToString _ (by decide) (by omega)
    rw [List.length_append] at hshort
    unfold networkMaxMsgSize at hshort
    omega

theorem attached_data_iff_text :
    readNbytes 2 (bytes "abc") = (.ok, bytes "ab", bytes "c") ∧
    Net.readNbytes 2 (bytes "abc") = (.ok, bytes "ab", bytes "c") ∧
    readHttpFile ((handleHttpGet (bytes "<html>")).toString ++ bytes "op=HELLO") =
      .ok (.ok, bytes "<html>", bytes "op=HELLO") := by
  obtain ⟨hagent, hserver, hfile⟩ :=
    @attached_data_iff 2 (bytes "abc") (bytes "<html>") (bytes "op=HELLO") (by decide)
  exact ⟨hagent, hserver.mpr (by decide), hfile.mpr (by decide)⟩

/-- The answer to the next request is read as the content of an empty
file, and more is waited for. -/
theorem empty_file_not_read : Net.readNbytes 0 (bytes "op=HELLO&code=0&content=I_got_it\n\n") ≠
      (.ok, [], bytes "op=HELLO&code=0&content=I_got_it\n\n") ∧
    readHttpFile ((handleHttpGet []).toString ++
        bytes "op=HELLO&code=0&content=I_got_it\n\n") =
      .ok (.err, bytes "op=HELLO&code=0&content=I_got_it\n\n", []) := by
  decide +kernel

end HoxServer.DbAgent
