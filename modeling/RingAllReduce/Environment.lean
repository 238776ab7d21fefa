import Mathlib.Algebra.Ring.Int.Defs
import Mathlib.Algebra.Ring.Nat
import Mathlib.Data.List.TakeWhile
import RingAllReduce.Interface

/-!
What `connect_process_group` reads from the environment: `RANK` and `WORLD_SIZE`, the hosts, and the
configuration of the collectives. A variable is the text `getenv` answers, if it is set.
-/

namespace RingAllReduce.ProcessGroup

abbrev Text := List Char

/-- `isspace` of the C locale. -/
def isSpace (letter : Char) : Bool := letter = ' ' || (9 ≤ letter.toNat && letter.toNat ≤ 13)

def longMax : Int := 2 ^ 63 - 1

def intMax : Int := 2 ^ 31 - 1

/-- What `strtol` answers: the value, where it stopped, whether it found a number, and `ERANGE`. -/
structure Strtol where
  value : Int
  rest : Text
  converted : Bool
  outOfRange : Bool
  deriving DecidableEq, Repr

def sign : Text → Bool × Text
  | [] => (false, [])
  | letter :: rest =>
      if letter = '-' then (true, rest)
      else if letter = '+' then (false, rest)
      else (false, letter :: rest)

/-- `strtol` with base 10. -/
def strtol (text : Text) : Strtol :=
  let (negative, start) := sign (text.dropWhile isSpace)
  let digits := start.takeWhile Char.isDigit
  let magnitude : Int := Nat.ofDigitChars 10 digits 0
  let value := if negative then -magnitude else magnitude
  if digits = [] then { value := 0, rest := text, converted := false, outOfRange := false }
  else
    { value := max (-longMax - 1) (min longMax value), rest := start.dropWhile Char.isDigit
      converted := true, outOfRange := value < -longMax - 1 ∨ longMax < value }

/-- `std::atoi`, that keeps the low 32 bits. -/
def atoi (text : Text) : Int := (strtol text).value.bmod (2 ^ 32)

def parsePositiveEnvironmentInt (name : String) (value : Option Text) (defaultValue : Int) :
    Except String Int :=
  match value with
  | none => .ok defaultValue
  | some [] => .ok defaultValue
  | some text =>
      let parsed := strtol text
      if parsed.outOfRange ∨ parsed.converted = false ∨ parsed.rest ≠ [] ∨ parsed.value ≤ 0 ∨
          intMax < parsed.value then
        .error ("Invalid " ++ name ++ " value: " ++ String.ofList text)
      else .ok parsed.value

def parseTransferModeEnvironment (value : Option Text) : Except String TransferMode :=
  match value with
  | none => .ok .auto
  | some text =>
      if text = [] ∨ text = "auto".toList then .ok .auto
      else if text = "eager".toList then .ok .eager
      else if text = "rendezvous".toList then .ok .rendezvous
      else .error ("Invalid PG_TRANSFER_MODE value: " ++ String.ofList text)

/-- The lines `std::getline` finds with `,` for the end of a line; `line` is what it has of the
first one. At the end of the stream there is no line without a letter. -/
def getLines : Text → Text → List Text
  | [], line => if line = [] then [] else [line]
  | letter :: rest, line =>
      if letter = ',' then line :: getLines rest [] else getLines rest (line ++ [letter])

def getHostList (environmentHosts servername : Option Text) (worldSize : Int) : List Text :=
  let hosts := match environmentHosts with
    | some text => (getLines text []).filter (· ≠ [])
    | none => []
  if hosts = [] then
    let fallback := match servername with
      | some name => if name = [] then "localhost".toList else name
      | none => "localhost".toList
    List.replicate worldSize.toNat fallback
  else hosts

section Numbers

/-- A number the way `strtol` takes it: blanks, a plus sign if any, and digits. -/
structure Plain (text spaces plus digits : Text) : Prop where
  shape : text = spaces ++ (plus ++ digits)
  blanks : ∀ letter ∈ spaces, isSpace letter = true
  signed : plus = [] ∨ plus = ['+']
  numeral : ∀ letter ∈ digits, letter.isDigit = true
  nonempty : digits ≠ []

variable {text spaces plus digits : Text}

theorem not_space_of_digit {letter : Char} (digit : letter.isDigit = true) :
    isSpace letter = false := by
  have low : 48 ≤ letter.toNat := (Char.isDigit_iff_toNat.mp digit).1
  have blank : letter ≠ ' ' := by
    rintro rfl
    simp at low
  simp only [isSpace, blank, decide_false, Bool.false_or, Bool.and_eq_false_iff,
    decide_eq_false_iff_not]
  omega

theorem sign_digits (all : ∀ letter ∈ digits, letter.isDigit = true) :
    sign digits = (false, digits) := by
  cases digits with
  | nil => rfl
  | cons letter rest =>
      have digit := all letter (by simp)
      have noMinus : letter ≠ '-' := by
        rintro rfl
        simp at digit
      have noPlus : letter ≠ '+' := by
        rintro rfl
        simp at digit
      simp only [sign, if_neg noMinus, if_neg noPlus]

theorem Plain.start (plain : Plain text spaces plus digits) :
    sign (text.dropWhile isSpace) = (false, digits) := by
  have unsigned := sign_digits plain.numeral
  obtain ⟨first, rest, rfl⟩ := List.exists_cons_of_ne_nil plain.nonempty
  have digit := not_space_of_digit (plain.numeral first (by simp))
  rw [plain.shape, List.dropWhile_append_of_pos plain.blanks]
  rcases plain.signed with rfl | rfl
  · rw [List.nil_append, List.dropWhile_cons_of_neg (by simp [digit]), unsigned]
  · rfl

theorem Plain.strtol (plain : Plain text spaces plus digits) : strtol text =
    { value := max (-longMax - 1) (min longMax (Nat.ofDigitChars 10 digits 0)), rest := []
      converted := true
      outOfRange := (Nat.ofDigitChars 10 digits 0 : Int) < -longMax - 1 ∨
        longMax < Nat.ofDigitChars 10 digits 0 } := by
  have taken : digits.takeWhile Char.isDigit = digits := List.takeWhile_eq_self_iff.mpr plain.numeral
  have left : digits.dropWhile Char.isDigit = [] := List.dropWhile_eq_nil_iff.mpr plain.numeral
  simp only [ProcessGroup.strtol, plain.start, taken, left, if_neg plain.nonempty]
  rfl

/-- Every text with a positive value and nothing behind it is such a number. -/
theorem plain_of_strtol (whole : (strtol text).rest = []) (converted : (strtol text).converted = true)
    (positive : 0 < (strtol text).value) : ∃ spaces plus digits, Plain text spaces plus digits := by
  have front := @List.takeWhile_append_dropWhile _ isSpace text
  generalize spacesEq : text.takeWhile isSpace = spaces at front
  have blanks : ∀ letter ∈ spaces, isSpace letter = true := by
    rw [← spacesEq]
    exact fun letter member => List.mem_takeWhile_imp member
  have digitsOf : ∀ {start : Text}, start.dropWhile Char.isDigit = [] →
      ∀ letter ∈ start, letter.isDigit = true := fun none => List.dropWhile_eq_nil_iff.mp none
  unfold strtol at whole converted positive
  simp only at whole converted positive
  split at converted
  · simp at converted
  rename_i some
  simp only [if_neg some] at whole positive
  have digits := digitsOf whole
  have nonempty : (sign (text.dropWhile isSpace)).2 ≠ [] := by
    intro none
    simp [none] at some
  cases start : text.dropWhile isSpace with
  | nil =>
      rw [start] at nonempty
      exact absurd rfl nonempty
  | cons letter rest =>
      rw [start] at digits nonempty positive front
      by_cases minus : letter = '-'
      · simp only [sign, minus, if_true, longMax] at positive
        omega
      · by_cases plus : letter = '+'
        · simp only [sign, plus, if_true] at digits nonempty
          exact ⟨spaces, ['+'], rest, by rw [← front, plus]; rfl, blanks, Or.inr rfl, digits,
            nonempty⟩
        · simp only [sign, minus, plus, if_false] at digits nonempty
          exact ⟨spaces, [], letter :: rest, front.symm, blanks, Or.inl rfl, digits, nonempty⟩

theorem Plain.ne_nil (plain : Plain text spaces plus digits) : text ≠ [] := by
  rw [plain.shape]
  simp [plain.nonempty]

theorem Plain.parsed (plain : Plain text spaces plus digits) (name : String) (defaultValue : Int)
    (positive : 0 < Nat.ofDigitChars 10 digits 0)
    (small : (Nat.ofDigitChars 10 digits 0 : Int) ≤ intMax) :
    parsePositiveEnvironmentInt name (some text) defaultValue =
      .ok (Nat.ofDigitChars 10 digits 0 : Int) := by
  obtain ⟨first, rest, rfl⟩ := List.exists_cons_of_ne_nil plain.ne_nil
  simp only [parsePositiveEnvironmentInt]
  rw [plain.strtol]
  simp only [intMax] at small
  have value : max (-longMax - 1) (min longMax (Nat.ofDigitChars 10 digits 0)) =
      Nat.ofDigitChars 10 digits 0 := by
    simp only [longMax]
    omega
  have inRange : ¬ ((Nat.ofDigitChars 10 digits 0 : Int) < -longMax - 1 ∨
      longMax < Nat.ofDigitChars 10 digits 0) := by
    simp only [longMax]
    omega
  rw [if_neg]
  · rw [value]
  · simp only [value, inRange, decide_false, intMax]
    simp
    omega

/-- Nothing but a positive `int` is taken. -/
theorem plain_of_parsed {name : String} {defaultValue value : Int} (set : text ≠ [])
    (parsed : parsePositiveEnvironmentInt name (some text) defaultValue = .ok value) :
    ∃ spaces plus digits, Plain text spaces plus digits ∧
      (Nat.ofDigitChars 10 digits 0 : Int) = value ∧ 0 < value ∧ value ≤ intMax := by
  obtain ⟨first, rest, rfl⟩ := List.exists_cons_of_ne_nil set
  simp only [parsePositiveEnvironmentInt] at parsed
  split at parsed
  · simp at parsed
  rename_i good
  simp only [not_or, Bool.not_eq_true, not_not, Bool.not_eq_false, Int.not_le, Int.not_lt] at good
  obtain ⟨inRange, converted, whole, positive, small⟩ := good
  obtain ⟨spaces, plus, digits, plain⟩ := plain_of_strtol whole converted positive
  obtain rfl := Except.ok.inj parsed
  refine ⟨spaces, plus, digits, plain, ?_, positive, small⟩
  rw [plain.strtol] at inRange ⊢
  simp only [decide_eq_false_iff_not, not_or, Int.not_lt] at inRange ⊢
  omega

/-- What `parse_positive_environment_int` takes of a variable that is set: the positive `int`s, in
decimal digits. Every one of them is read back from its digits, whatever blanks stand before them. -/
theorem parse_positive (name : String) (defaultValue : Int) :
    (∀ text value, text ≠ [] →
      (parsePositiveEnvironmentInt name (some text) defaultValue = .ok value ↔
        ∃ spaces plus digits, Plain text spaces plus digits ∧
          (Nat.ofDigitChars 10 digits 0 : Int) = value ∧ 0 < value ∧ value ≤ intMax)) ∧
    ∀ (value : Nat) (spaces : Text), 0 < value → (value : Int) ≤ intMax →
      (∀ letter ∈ spaces, isSpace letter = true) →
      parsePositiveEnvironmentInt name (some (spaces ++ Nat.toDigits 10 value)) defaultValue =
        .ok (value : Int) := by
  constructor
  · intro text value set
    constructor
    · exact plain_of_parsed set
    · rintro ⟨spaces, plus, digits, plain, rfl, positive, small⟩
      exact plain.parsed name defaultValue (by omega) small
  · intro value spaces positive small blanks
    have plain : Plain (spaces ++ Nat.toDigits 10 value) spaces [] (Nat.toDigits 10 value) :=
      ⟨by simp, blanks, Or.inl rfl,
        fun letter member => Nat.isDigit_of_mem_toDigits (by decide) (by decide) member,
        Nat.toDigits_ne_nil⟩
    have back : Nat.ofDigitChars 10 (Nat.toDigits 10 value) 0 = value :=
      Nat.ofDigitChars_toDigits (by decide) (by decide)
    have parsed := plain.parsed name defaultValue
    rw [back] at parsed
    exact parsed positive small

/-- A sign is taken, but not what stands behind a number. -/
example : parsePositiveEnvironmentInt "PG_MAX_INFLIGHT" (some [' ', '+', '8']) 4 = .ok 8 ∧
    parsePositiveEnvironmentInt "PG_MAX_INFLIGHT" (some ['8', ' ']) 4 =
      .error "Invalid PG_MAX_INFLIGHT value: 8 " := by decide

end Numbers

section Hosts

def fields (text : Text) : List Text := (text.splitOn ',').filter (· ≠ [])

theorem getLines_fields (text line : Text) : (getLines text line).filter (· ≠ []) =
    (text.splitOnPPrepend (· == ',') line.reverse).filter (· ≠ []) := by
  induction text generalizing line with
  | nil => by_cases empty : line = [] <;> simp [getLines, empty]
  | cons letter rest ih =>
      by_cases comma : letter = ','
      · subst comma
        have whole := @List.splitOnPPrepend_cons_pos _ (· == ',') ',' rest line.reverse rfl
        simp only [getLines, if_true, whole, List.reverse_reverse, List.filter_cons, ih []]
        rfl
      · rw [getLines, if_neg comma, ih, List.splitOnPPrepend_cons_neg (by simpa using comma),
          List.reverse_append]
        rfl

theorem getLines_fields_nil (text : Text) :
    (getLines text []).filter (· ≠ []) = fields text := getLines_fields text []

theorem getLines_no_comma {text line host : Text} (free : ',' ∉ line)
    (member : host ∈ getLines text line) : ',' ∉ host := by
  induction text generalizing line with
  | nil =>
      by_cases empty : line = []
      · simp [getLines, empty] at member
      · rw [getLines, if_neg empty, List.mem_singleton] at member
        rwa [member]
  | cons letter rest ih =>
      by_cases comma : letter = ','
      · rw [getLines, if_pos comma, List.mem_cons] at member
        rcases member with rfl | later
        · exact free
        · exact ih (by simp) later
      · rw [getLines, if_neg comma] at member
        exact ih (by simp [free, Ne.symm comma]) member

theorem getHostList_fields (text : Text) (servername : Option Text) (worldSize : Int) :
    getHostList (some text) servername worldSize =
      if fields text = [] then getHostList none servername worldSize else fields text := by
  have same := getLines_fields_nil text
  simp only [getHostList, same, if_true]

/-- Hosts that are joined by commas are found again, and a field that is empty names no host. -/
theorem host_list (servername : Option Text) (worldSize : Int) :
    (∀ hosts : List Text, hosts ≠ [] → (∀ host ∈ hosts, host ≠ [] ∧ ',' ∉ host) →
      getHostList (some (List.intercalate [','] hosts)) servername worldSize = hosts) ∧
    ∀ text, getHostList (some text) servername worldSize =
        getHostList none servername worldSize ∨
      getHostList (some text) servername worldSize ≠ [] ∧
        ∀ host ∈ getHostList (some text) servername worldSize, host ≠ [] ∧ ',' ∉ host := by
  constructor
  · intro hosts some named
    have found : fields (List.intercalate [','] hosts) = hosts := by
      rw [fields, List.splitOn_intercalate ',' (fun host member => (named host member).2) some,
        List.filter_eq_self]
      intro host member
      simpa using (named host member).1
    rw [getHostList_fields, found, if_neg some]
  · intro text
    rw [getHostList_fields]
    split
    · exact Or.inl rfl
    · rename_i some
      refine Or.inr ⟨some, fun host member => ?_⟩
      rw [← getLines_fields_nil, List.mem_filter] at member
      exact ⟨by simpa using member.2, getLines_no_comma (by simp) member.1⟩

end Hosts

end RingAllReduce.ProcessGroup
