/-
HoxServer.Net.Message — requests as text: `hoxRequest` of the server and
of the database agent (`hoxTypes.cpp` of both), with
`hoxUtil::parse_network_message` and `hoxSocketAPI::read_line`.

The two programs have the same code for these, each over its own
enumeration of request types, so the functions take the enumeration's
functions as parameters. What a socket delivers until it is closed is a
list of bytes, and what a read returns when there are no more is a
parameter of `read_line`: that the connection is closed, or a timeout, an
interrupt or an error.

What a request's text is read back as is settled here for every text
(`parse_toString`): the parameters come back exactly when no name and no
value has a byte that means something to the reader.
-/
import HoxServer.Enums
import HoxServer.Lib.EscapedList
import HoxServer.Lib.SortedMap

namespace HoxServer.Net

open Lib

/-! ## Requests -/

/-- `Separator sep('\\', '&', '\"')`. -/
def separator : Separator UInt8 where
  escape := 92
  separator := 38
  quote := 34
  n := 110
  newline := 10
  separator_ne_escape := by decide
  separator_ne_quote := by decide

-- the keys of a map are compared byte by byte
instance : IsTrans Bytes (· < ·) := inferInstance
instance : Std.Trichotomous (α := Bytes) (· < ·) := inferInstance

/-- `hoxParameters`. -/
abbrev Parameters := SortedMap Bytes Bytes

/-- `hoxRequest`, over the request types of a program. -/
structure Request (τ : Type) where
  type : τ
  parameters : Parameters
  deriving DecidableEq

/-- `hoxRequest::getParam`. -/
def Request.getParam {τ : Type} (request : Request τ) (key : Bytes) : Bytes :=
  (request.parameters.get? key).getD []

/-- `hoxRequest::setParam`. -/
def Request.setParam {τ : Type} (request : Request τ) (key value : Bytes) : Request τ :=
  { request with parameters := request.parameters.set key value }

/-- Storing into `hoxParameters`. -/
def Parameters.store (parameters : Parameters) (key value : Bytes) : Parameters :=
  parameters.set key value

/-- A parameter as text. -/
def pair (parameter : Bytes × Bytes) : Bytes := parameter.1 ++ bytes "=" ++ parameter.2

/-- `hoxRequest::toString`. -/
def Request.toString {τ : Type} (requestTypeToString : τ → Bytes) (request : Request τ) : Bytes :=
  bytes "op=" ++ requestTypeToString request.type ++
    request.parameters.entries.flatMap fun parameter => bytes "&" ++ pair parameter

/-- A token as a pair of a name and a value, cut at its first `=`. -/
def nameValue (token : Bytes) : Bytes × Bytes :=
  (token.takeWhile fun c => c ≠ 61, (token.dropWhile fun c => c ≠ 61).tail)

/-- One round of the loop of `parse_network_message`. -/
def Request.take {τ : Type} (stringToRequestType : Bytes → τ) (request : Request τ)
    (token : Bytes) : Request τ :=
  if (nameValue token).1 = bytes "op" then
    { request with type := stringToRequestType (nameValue token).2 }
  else request.setParam (nameValue token).1 (nameValue token).2

/-- `hoxUtil::parse_network_message`; `unknown` is `hoxREQUEST_UNKNOWN`. -/
def parseNetworkMessage {τ : Type} (unknown : τ) (stringToRequestType : Bytes → τ)
    (sNetworkMessage : Bytes) : Except EscapedListError (Request τ) :=
  (separator.fields sNetworkMessage).map fun tokens =>
    tokens.foldl (Request.take stringToRequestType) ⟨unknown, SortedMap.empty⟩

/-! ## Numbers -/

/-- The decimal digits of a number. -/
def natToString (n : Nat) : Bytes := (Nat.toDigits 10 n).map fun c => UInt8.ofNat c.toNat

/-- `hoxUtil::intToString`, and what a stream prints of an `int`. -/
def intToString : Int → Bytes
  | .ofNat n => natToString n
  | .negSucc n => 45 :: natToString (n + 1)

theorem mem_natToString {n : Nat} {c : UInt8} (h : c ∈ natToString n) : 48 ≤ c ∧ c ≤ 57 := by
  obtain ⟨d, hd, rfl⟩ := List.mem_map.mp h
  have hdigit := Nat.isDigit_of_mem_toDigits (by decide) (by decide) hd
  simp only [Char.isDigit, ge_iff_le, Bool.and_eq_true, decide_eq_true_eq] at hdigit
  have hle : 48 ≤ d.toNat := hdigit.1
  have hge : d.toNat ≤ 57 := hdigit.2
  simp [UInt8.le_iff_toNat_le]
  omega

theorem mem_intToString {n : Int} {c : UInt8} (h : c ∈ intToString n) :
    c = 45 ∨ 48 ≤ c ∧ c ≤ 57 := by
  cases n with
  | ofNat n => exact Or.inr (mem_natToString h)
  | negSucc n => exact (List.mem_cons.mp h).imp_right mem_natToString

/-- A byte that is no digit and no sign is in no number. -/
theorem not_mem_intToString {c : UInt8} (hc : ¬ (c = 45 ∨ 48 ≤ c ∧ c ≤ 57)) (n : Int) :
    c ∉ intToString n := fun h => hc (mem_intToString h)

/-! ## Lines -/

/-- `hoxNETWORK_MAX_MSG_SIZE`. -/
def networkMaxMsgSize : Nat := 4096

/-- The loop of `read_line`, which has read `outLine`: the result, the line
and what is left to read. -/
def readLineFrom (atEnd : Result) (outLine : Bytes) : Bytes → Result × Bytes × Bytes
  | [] => (atEnd, outLine, [])
  | c :: input =>
    if c = 10 then (.ok, outLine, input)
    else if networkMaxMsgSize ≤ (outLine ++ [c]).length then (.err, outLine ++ [c], input)
    else readLineFrom atEnd (outLine ++ [c]) input

/-- `hoxSocketAPI::read_line`; `atEnd` is the result when there is no more to
read, which is `hoxRC_OK` for a connection that is closed. -/
def readLine (input : Bytes) (atEnd : Result := .ok) : Result × Bytes × Bytes :=
  readLineFrom atEnd [] input

/-- A line is read whole, with nothing left, exactly when it is one line and
short enough. -/
theorem readLineFrom_append {atEnd : Result} {outLine line line' : Bytes}
    (hlt : outLine.length < networkMaxMsgSize) :
    readLineFrom atEnd outLine (line ++ [10]) = (.ok, line', []) ↔
      line' = outLine ++ line ∧ 10 ∉ line ∧ (outLine ++ line).length < networkMaxMsgSize := by
  induction line generalizing outLine with
  | nil => simp [readLineFrom, hlt, eq_comm]
  | cons c line ih =>
    rw [List.cons_append, readLineFrom]
    split
    · rename_i hc
      simp [hc]
    · rename_i hc
      split
      · rename_i hge
        simp only [List.length_append, List.length_cons, List.length_nil] at hge
        simp only [Prod.mk.injEq, reduceCtorEq, false_and, List.length_append, List.length_cons,
          false_iff, not_and, not_lt]
        omega
      · rename_i hshort
        rw [ih (not_le.mp hshort)]
        simp [Ne.symm hc]

theorem readLine_append {line line' : Bytes} :
    readLine (line ++ [10]) = (.ok, line', []) ↔
      line' = line ∧ 10 ∉ line ∧ line.length < networkMaxMsgSize := by
  rw [readLine, readLineFrom_append (by decide)]
  simp

/-! ## Names and values -/

/-- A parameter that is read as it is written. -/
structure PlainParameter (parameter : Bytes × Bytes) : Prop where
  name_ne_op : parameter.1 ≠ bytes "op"
  name_no_eq : 61 ∉ parameter.1
  name : separator.Plain parameter.1
  value : separator.Plain parameter.2

@[simp] theorem pair_eq (parameter : Bytes × Bytes) :
    pair parameter = parameter.1 ++ 61 :: parameter.2 := by
  have heq : bytes "=" = [61] := by decide
  simp [pair, heq]

@[simp] theorem nameValue_nil : nameValue [] = ([], []) := rfl

theorem nameValue_cons (c : UInt8) (token : Bytes) : nameValue (c :: token) =
    if c = 61 then ([], token) else (c :: (nameValue token).1, (nameValue token).2) := by
  by_cases hc : c = 61 <;> simp [nameValue, hc]

theorem nameValue_append {name value : Bytes} (h : 61 ∉ name) :
    nameValue (name ++ 61 :: value) = (name, value) := by
  induction name with
  | nil => simp [nameValue_cons]
  | cons c name ih =>
    obtain ⟨hc, hname⟩ := not_or.mp (mt List.mem_cons.mpr h)
    simp [nameValue_cons, Ne.symm hc, ih hname]

theorem not_mem_name (token : Bytes) : 61 ∉ (nameValue token).1 := by
  induction token with
  | nil => simp
  | cons c token ih =>
    rw [nameValue_cons]
    split
    · simp
    · rename_i hc
      simpa [Ne.symm hc] using ih

/-- The bytes that count for the length of a parameter: not the `=`. -/
def counted (c : UInt8) : Bool := c ≠ 61

theorem counts_counted : separator.Counts counted := by
  constructor <;> decide

/-- The length of a parameter as text, without its `=`. -/
def size (parameter : Bytes × Bytes) : Nat :=
  parameter.1.countP counted + parameter.2.countP counted + 1

theorem size_nameValue (token : Bytes) : size (nameValue token) = token.countP counted + 1 := by
  induction token with
  | nil => rfl
  | cons c token ih =>
    rw [nameValue_cons, List.countP_cons]
    split
    · rename_i hc
      simp [size, hc, counted]
    · rename_i hc
      have hcounted : counted c = true := by simp [counted, hc]
      simp only [size, List.countP_cons, hcounted, if_true] at ih ⊢
      omega

theorem weight_eq_size (tokens : List Bytes) :
    Separator.weight counted tokens = ((tokens.map nameValue).map size).sum := by
  induction tokens with
  | nil => rfl
  | cons token tokens ih => simp [ih, size_nameValue]

theorem weight_pairs (parameters : List (Bytes × Bytes)) :
    Separator.weight counted (parameters.map pair) = (parameters.map size).sum := by
  have heq : counted 61 = false := rfl
  induction parameters with
  | nil => rfl
  | cons parameter parameters ih => simp [ih, size, heq]

/-! ## Reading a request back -/

variable {τ : Type} {toType : Bytes → τ} {request : Request τ}

/-- The parameters that are set come from the tokens. -/
theorem mem_foldl_take {tokens : List Bytes} {parameter : Bytes × Bytes}
    (h : parameter ∈ (tokens.foldl (Request.take toType) request).parameters.entries) :
    parameter ∈ request.parameters.entries ∨
      parameter.1 ≠ bytes "op" ∧ parameter ∈ tokens.map nameValue := by
  induction tokens generalizing request with
  | nil => exact Or.inl h
  | cons token tokens ih =>
    rcases ih h with h | ⟨hop, hmem⟩
    · rw [Request.take] at h
      split at h
      · exact Or.inl h
      · rename_i hop
        rcases SortedMap.mem_insert h with rfl | h
        · exact Or.inr ⟨hop, List.mem_cons_self⟩
        · exact Or.inl h
    · exact Or.inr ⟨hop, List.mem_cons_of_mem _ hmem⟩

theorem getParam_setParam (key value key' : Bytes) :
    (request.setParam key value).getParam key' =
      if key' = key then value else request.getParam key' := by
  simp only [Request.getParam, Request.setParam, SortedMap.get?_set]
  split <;> rfl

/-- The value that the last of these tokens with this name has. -/
def lastValue (name : Bytes) (tokens : List Bytes) : Option Bytes :=
  (tokens.map nameValue).reverse.lookup name

theorem lastValue_append (name : Bytes) (tokens : List Bytes) (token : Bytes) :
    lastValue name (tokens ++ [token]) =
      if name = (nameValue token).1 then some (nameValue token).2 else lastValue name tokens := by
  simp only [lastValue, List.map_append, List.map_cons, List.map_nil, List.reverse_append,
    List.reverse_singleton, List.singleton_append]
  obtain ⟨name', value⟩ := nameValue token
  rw [List.lookup_cons]
  by_cases hname : name = name'
  · simp [hname]
  · rw [beq_eq_false_iff_ne.mpr hname, if_neg hname]

/-- A parameter has the value that it was given last. -/
theorem getParam_foldl_take {tokens : List Bytes} {key : Bytes} (hkey : key ≠ bytes "op") :
    (tokens.foldl (Request.take toType) request).getParam key =
      (lastValue key tokens).getD (request.getParam key) := by
  induction tokens using List.reverseRecOn with
  | nil => rfl
  | append_singleton tokens token ih =>
    rw [List.foldl_append, List.foldl_cons, List.foldl_nil, lastValue_append, Request.take]
    by_cases hname : key = (nameValue token).1
    · rw [if_neg fun hop => hkey (hname.trans hop), getParam_setParam, if_pos hname, if_pos hname]
      rfl
    · rw [if_neg hname, ← ih]
      split
      · rfl
      · rw [getParam_setParam, if_neg hname]

/-- And so has the type. -/
theorem type_foldl_take {tokens : List Bytes} :
    (tokens.foldl (Request.take toType) request).type =
      ((lastValue (bytes "op") tokens).map toType).getD request.type := by
  induction tokens using List.reverseRecOn with
  | nil => rfl
  | append_singleton tokens token ih =>
    rw [List.foldl_append, List.foldl_cons, List.foldl_nil, lastValue_append, Request.take]
    by_cases hname : bytes "op" = (nameValue token).1
    · rw [if_pos hname.symm, if_pos hname]
      rfl
    · rw [if_neg (Ne.symm hname), if_neg hname]
      exact ih

/-- Plain parameters are set one after another. -/
theorem foldl_take_pairs {parameters : List (Bytes × Bytes)}
    (h : ∀ parameter ∈ parameters, PlainParameter parameter) :
    (parameters.map pair).foldl (Request.take toType) request =
      { request with parameters := request.parameters.setAll parameters } := by
  induction parameters generalizing request with
  | nil => rfl
  | cons parameter parameters ih =>
    have hplain := h parameter List.mem_cons_self
    have htake : Request.take toType request (pair parameter) =
        request.setParam parameter.1 parameter.2 := by
      rw [Request.take, pair_eq, nameValue_append hplain.name_no_eq, if_neg hplain.name_ne_op]
    rw [List.map_cons, List.foldl_cons, htake,
      ih fun e he => h e (List.mem_cons_of_mem parameter he)]
    rfl

/-- Where a list has all that another one weighs, it has no more members. -/
theorem length_add_sum_le {l l' : List (Bytes × Bytes)} (h : l.Sublist l') :
    l'.length + (l.map size).sum ≤ l.length + (l'.map size).sum := by
  induction h with
  | slnil => simp
  | cons parameter _ ih =>
    simp only [List.length_cons, List.map_cons, List.sum_cons, size] at ih ⊢
    omega
  | cons_cons parameter _ ih =>
    simp only [List.length_cons, List.map_cons, List.sum_cons]
    omega

variable {τ' : Type} {unknown : τ'} {toType' : Bytes → τ'} {toString : τ → Bytes} {type : τ'}

theorem fields_toString (htype : separator.Plain (toString request.type)) :
    separator.fields (request.toString toString) =
      separator.fieldsFrom false (bytes "op=" ++ toString request.type)
        (separator.joined (request.parameters.entries.map pair)) := by
  have hop : separator.Plain (bytes "op=") := by decide
  have hplain : separator.Plain (bytes "op=" ++ toString request.type) := fun c hc =>
    (List.mem_append.mp hc).elim (hop c) (htype c)
  have hjoined : request.parameters.entries.flatMap (fun e => bytes "&" ++ pair e) =
      separator.joined (request.parameters.entries.map pair) := by
    have hand : bytes "&" = [separator.separator] := by decide
    simp [Separator.joined, List.flatMap_map, hand]
  have htext : separator.fields (request.toString toString) =
      separator.fieldsFrom false [] (request.toString toString) := rfl
  rw [htext, Request.toString, hjoined, Separator.fieldsFrom_append hplain, List.nil_append]

/-- **The round trip of a request.** It is read back as it was written
exactly when its parameters are plain. -/
theorem parse_toString (htype : separator.Plain (toString request.type))
    (hto : toType' (toString request.type) = type) :
    parseNetworkMessage unknown toType' (request.toString toString) =
        .ok ⟨type, request.parameters⟩ ↔
      ∀ parameter ∈ request.parameters.entries, PlainParameter parameter := by
  rw [parseNetworkMessage, fields_toString htype]
  have hop : nameValue (bytes "op=" ++ toString request.type) =
      (bytes "op", toString request.type) := by
    have htext : bytes "op=" ++ toString request.type = bytes "op" ++ 61 :: toString request.type :=
      rfl
    rw [htext, nameValue_append (by decide)]
  constructor
  · intro h
    obtain ⟨tokens, htokens, htake⟩ := map_eq_ok.mp h
    obtain ⟨rest, rfl⟩ := Separator.head_of_fieldsFrom_joined htokens
    -- every parameter comes from a token of its own
    have hparam : ∀ e ∈ request.parameters.entries,
        e.1 ≠ bytes "op" ∧ e ∈ rest.map nameValue := by
      intro e he
      have hmem : e ∈ (((bytes "op=" ++ toString request.type) :: rest).foldl
          (Request.take toType') ⟨unknown, SortedMap.empty⟩).parameters.entries := by
        rw [htake]
        exact he
      obtain ⟨hne, htoken⟩ := (mem_foldl_take hmem).resolve_left List.not_mem_nil
      refine ⟨hne, ?_⟩
      rcases List.mem_cons.mp htoken with rfl | htoken
      · rw [hop] at hne
        exact absurd rfl hne
      · exact htoken
    obtain ⟨l, hperm, hsub⟩ :=
      List.subperm_of_subset (SortedMap.nodup _) fun e he => (hparam e he).2
    -- so the tokens weigh what the text does, and there are no others
    have hroom := length_add_sum_le hsub
    rw [(hperm.map size).sum_eq, hperm.length_eq, List.length_map] at hroom
    have hfewer := hsub.length_le
    rw [hperm.length_eq, List.length_map] at hfewer
    have hlost := Separator.weight_le counts_counted htokens
    rw [counts_counted.joined, Separator.weight_cons, weight_pairs, weight_eq_size] at hlost
    have hplain := Separator.plain_of_weight counts_counted htokens
      (by rw [weight_pairs, weight_eq_size]; omega) (by rw [List.length_map]; omega)
    intro e he
    have hpair := hplain (pair e) (List.mem_map_of_mem he)
    rw [pair_eq] at hpair
    obtain ⟨token, -, rfl⟩ := List.mem_map.mp (hparam e he).2
    exact ⟨(hparam _ he).1, not_mem_name token, fun c hc => hpair c (List.mem_append_left _ hc),
      fun c hc => hpair c (List.mem_append_right _ (List.mem_cons_of_mem _ hc))⟩
  · intro h
    have hplain : ∀ token ∈ request.parameters.entries.map pair, separator.Plain token := by
      intro token htoken c hc
      obtain ⟨e, he, rfl⟩ := List.mem_map.mp htoken
      rw [pair_eq] at hc
      rcases List.mem_append.mp hc with hc | hc
      · exact (h e he).name c hc
      · rcases List.mem_cons.mp hc with rfl | hc
        · simp [Separator.IsPlain, separator]
        · exact (h e he).value c hc
    have htake : Request.take toType' ⟨unknown, SortedMap.empty⟩
        (bytes "op=" ++ toString request.type) = ⟨type, SortedMap.empty⟩ := by
      rw [Request.take, hop, if_pos rfl, hto]
    rw [Separator.fieldsFrom_joined hplain, Except.map, List.foldl_cons, htake,
      foldl_take_pairs h, SortedMap.setAll_entries]

end HoxServer.Net
