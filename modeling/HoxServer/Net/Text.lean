/-
HoxServer.Net.Text — texts and numbers on the wire: `read_nbytes` of
`hoxSocketAPI`, the tokens of `boost::char_separator`, and what
`hoxUtil.cpp` makes of a text.
-/
import HoxServer.Net.Message
import HoxServer.Player
import Mathlib.Data.List.TakeWhile

namespace HoxServer.Net

open Lib

/-! ## Reading -/

/-- The loop of `read_nbytes`, which has read `sResult`: the result, the data
and what is left to read. Nothing more to read is an error here. -/
def readNbytesFrom (nBytes : Nat) (sResult : Bytes) : Bytes → Result × Bytes × Bytes
  | [] => (.err, sResult, [])
  | c :: input =>
    if (sResult ++ [c]).length = nBytes then (.ok, sResult ++ [c], input)
    else readNbytesFrom nBytes (sResult ++ [c]) input

/-- `hoxSocketAPI::read_nbytes` with an empty result. -/
def readNbytes (nBytes : Nat) (input : Bytes) : Result × Bytes × Bytes :=
  readNbytesFrom nBytes [] input

theorem readNbytesFrom_ok {nBytes : Nat} {sResult input : Bytes} (h : sResult.length < nBytes) :
    (readNbytesFrom nBytes sResult input).1 = .ok ↔ nBytes ≤ sResult.length + input.length := by
  induction input generalizing sResult with
  | nil =>
    simp [readNbytesFrom]
    omega
  | cons c input ih =>
    rw [readNbytesFrom]
    split
    · rename_i heq
      simp only [List.length_append, List.length_cons, List.length_nil] at heq ⊢
      simp only [true_iff]
      omega
    · rename_i hne
      simp only [List.length_append, List.length_cons, List.length_nil] at hne
      rw [ih (by simp; omega)]
      simp only [List.length_append, List.length_cons, List.length_nil]
      omega

theorem readNbytesFrom_zero {sResult input : Bytes} :
    (readNbytesFrom 0 sResult input).1 = .err := by
  induction input generalizing sResult with
  | nil => rfl
  | cons c input ih => simp [readNbytesFrom, ih]

/-- So many bytes are read where there are as many; none is not read. -/
theorem readNbytes_ok {nBytes : Nat} {input : Bytes} :
    (readNbytes nBytes input).1 = .ok ↔ 0 < nBytes ∧ nBytes ≤ input.length := by
  rcases Nat.eq_zero_or_pos nBytes with rfl | hpos
  · simp [readNbytes, readNbytesFrom_zero]
  · rw [readNbytes, readNbytesFrom_ok (by simpa using hpos)]
    simp [hpos]

/-! ## Texts -/

/-- `hoxUtil::trimLast`. -/
def trimLast (sInput : Bytes) (token : UInt8) : Bytes :=
  if sInput.getLast? = some token then sInput.dropLast else sInput

/-- The tokens of a `boost::char_separator`: empty ones are dropped. -/
def tokens (separator : UInt8) (text : Bytes) : List Bytes :=
  (text.splitOn separator).filter fun token => token ≠ []

/-- `hoxUtil::stringToColor`. -/
def stringToColor (input : Bytes) : Color :=
  if input = bytes "Red" then .red
  else if input = bytes "Black" then .black
  else if input = bytes "None" then .none
  else .unknown

/-! ## Numbers -/

/-- A byte that `isspace` accepts. -/
def isSpace (c : UInt8) : Bool := c = 32 ∨ 9 ≤ c ∧ c ≤ 13

def isDigit (c : UInt8) : Bool := 48 ≤ c ∧ c ≤ 57

/-- The number in front of a text, if there is a digit there. -/
def leadingNat (s : Bytes) : Option Nat :=
  match s.takeWhile isDigit with
  | [] => none
  | digits => some (digits.foldl (fun n c => 10 * n + (c.toNat - 48)) 0)

/-- The number that a text starts with, after spaces and a sign. -/
def leadingInt (s : Bytes) : Option Int :=
  match s.dropWhile isSpace with
  | 45 :: s => (leadingNat s).map fun n => -(n : Int)
  | 43 :: s => (leadingNat s).map Int.ofNat
  | s => (leadingNat s).map Int.ofNat

/-- `atoi`: the value of `strtol`, which stays within a 64-bit `long`, as an
`int`. -/
def atoi (s : Bytes) : Int :=
  toInt32 (max (-2 ^ 63) (min (2 ^ 63 - 1) ((leadingInt s).getD 0)))

/-- An `int` as a `size_t`. -/
def toSizeT (n : Int) : Nat := (n % 2 ^ 64).toNat

/-- `hoxUtil::convertTo<int>`. The variable is not set by a text that is not
the number of an `int`, whatever it held before. -/
def convertTo (s : Bytes) (uninitialized : Int) : Int :=
  match leadingInt s with
  | some n => if toInt32 n = n then n else uninitialized
  | none => uninitialized

theorem isDigit_of_mem_natToString {n : Nat} {c : UInt8} (h : c ∈ natToString n) :
    isDigit c = true := by
  simpa [isDigit] using mem_natToString h

theorem natToString_ne_nil (n : Nat) : natToString n ≠ [] := by
  simp [natToString, Nat.toDigits_ne_nil]

theorem intToString_ne_nil (n : Int) : intToString n ≠ [] := by
  cases n with
  | ofNat n => exact natToString_ne_nil n
  | negSucc n => exact List.cons_ne_nil _ _

/-- A number is a token of any separator that is no digit and no sign. -/
theorem intToString_token {sep : UInt8} (hsep : ¬ (sep = 45 ∨ 48 ≤ sep ∧ sep ≤ 57)) (n : Int) :
    intToString n ≠ [] ∧ sep ∉ intToString n :=
  ⟨intToString_ne_nil n, not_mem_intToString hsep n⟩

theorem foldl_digits {l : List Char} (hl : ∀ c ∈ l, c.isDigit = true) (m : Nat) :
    (l.map fun c => UInt8.ofNat c.toNat).foldl (fun n c => 10 * n + (c.toNat - 48)) m =
      Nat.ofDigitChars 10 l m := by
  induction l generalizing m with
  | nil => simp
  | cons c l ih =>
    have hc := hl c List.mem_cons_self
    simp only [Char.isDigit, Bool.and_eq_true, decide_eq_true_eq] at hc
    have hle : c.toNat ≤ 57 := hc.2
    have hbyte : (UInt8.ofNat c.toNat).toNat = c.toNat := by
      simp
      omega
    rw [List.map_cons, List.foldl_cons, hbyte, Nat.ofDigitChars_cons]
    exact ih (fun c' hc' => hl c' (List.mem_cons_of_mem c hc')) _

/-- The digits of a number are read as the number. -/
theorem leadingNat_natToString (n : Nat) : leadingNat (natToString n) = some n := by
  have hdigits : (natToString n).takeWhile isDigit = natToString n :=
    List.takeWhile_eq_self_iff.mpr fun _ hc => isDigit_of_mem_natToString hc
  have hvalue : (natToString n).foldl (fun n c => 10 * n + (c.toNat - 48)) 0 = n := by
    have hchars : ∀ c ∈ Nat.toDigits 10 n, c.isDigit = true :=
      fun _ hc => Nat.isDigit_of_mem_toDigits (by decide) (by decide) hc
    rw [natToString, foldl_digits hchars]
    exact Nat.ofDigitChars_ten_toDigits
  unfold leadingNat
  rw [hdigits]
  cases hs : natToString n with
  | nil => exact absurd hs (natToString_ne_nil n)
  | cons c s =>
    rw [hs] at hvalue
    simp only [hvalue]

/-- A number is read in front, whatever its sign. -/
theorem leadingInt_intToString (n : Int) : leadingInt (intToString n) = some n := by
  cases n with
  | ofNat n =>
    have hread := leadingNat_natToString n
    cases hs : natToString n with
    | nil => exact absurd hs (natToString_ne_nil n)
    | cons c s =>
      have hdigit : 48 ≤ c ∧ c ≤ 57 := mem_natToString (hs ▸ List.mem_cons_self)
      have hspace : isSpace c = false := by
        simp [isSpace, UInt8.le_iff_toNat_le, ← UInt8.toNat_inj] at hdigit ⊢
        omega
      rw [hs] at hread
      have hdrop : (c :: s).dropWhile isSpace = c :: s := by simp [hspace]
      unfold leadingInt
      rw [intToString, hs, hdrop]
      split
      · rename_i heq
        obtain ⟨rfl, -⟩ := List.cons.inj heq
        exact absurd hdigit (by decide)
      · rename_i heq
        obtain ⟨rfl, -⟩ := List.cons.inj heq
        exact absurd hdigit (by decide)
      · rw [hread]
        rfl
  | negSucc n =>
    have hdrop : (45 :: natToString (n + 1)).dropWhile isSpace = 45 :: natToString (n + 1) := rfl
    unfold leadingInt
    rw [intToString, hdrop]
    simp only [leadingNat_natToString]
    rfl

theorem intToString_injective : Function.Injective intToString := by
  intro n m h
  have hn := leadingInt_intToString n
  rw [h, leadingInt_intToString] at hn
  exact (Option.some.inj hn).symm

/-- `stringToInt` takes back `intToString`. -/
theorem atoi_intToString {n : Int} (h : toInt32 n = n) : atoi (intToString n) = n := by
  unfold atoi
  have hrange : -2147483648 ≤ n ∧ n < 2147483648 := by
    unfold toInt32 at h
    omega
  rw [leadingInt_intToString, Option.getD_some, min_eq_right (by omega), max_eq_right (by omega), h]

/-- `hoxUtil::stringToTimeInfo`. -/
def stringToTimeInfo (input : Bytes) : TimeInfo :=
  let number (i : Nat) : Int := ((tokens 47 input)[i]?.map atoi).getD 0
  { nGame := number 0, nMove := number 1, nFree := number 2 }

end HoxServer.Net
