import CoWq.Lib.Numerals
import CoWq.Lib.TextSearch
import Mathlib.Data.List.DropRight

/-!
# Reading HTTP/1.1 requests

A reader of requests: the request line, the lines of the fields up to an empty one, and the body,
whose end the fields determine.

* `readRequest`: the request in front of a text, and what follows it.
* `readRequest_head`: a head that has been written line by line is read again.
* `readBody_none`, `readBody_length`: bodies without coding.
* `readChunks_shorter`: a chunked text is longer than what it stands for.
-/

namespace HttpRequest

open CoWq TextSearch

abbrev Bytes := List UInt8

structure HeaderField where
  name : Bytes
  value : Bytes
  deriving DecidableEq, Repr

structure Request where
  method : Bytes
  target : Bytes
  version : Bytes
  fields : List HeaderField
  body : Bytes
  deriving DecidableEq, Repr

/-! ## The reader -/

def lowerChar (c : UInt8) : UInt8 := if 65 ≤ c ∧ c ≤ 90 then c + 32 else c

def lower (text : Bytes) : Bytes := text.map lowerChar

def text (s : String) : Bytes := s.toList.map fun c => UInt8.ofNat c.toNat

/-- The characters of tokens. -/
def isTokenChar (c : UInt8) : Bool :=
  48 ≤ c && c ≤ 57 || 65 ≤ c && c ≤ 90 || 97 ≤ c && c ≤ 122 || (text "!#$%&'*+-.^_`|~").contains c

def isBlank (c : UInt8) : Bool := c == 32 || c == 9

/-- The value without the blanks around it. -/
def trimBlanks (value : Bytes) : Bytes := (value.dropWhile isBlank).rdropWhile isBlank

/-- A line and what follows its CR LF. -/
def readLine : Bytes → Option (Bytes × Bytes)
  | [] => none
  | c :: rest =>
      if c = 13 ∧ rest.head? = some 10 then some ([], rest.tail)
      else (readLine rest).map fun (line, behind) => (c :: line, behind)

/-- The method, the target and the version. -/
def readStart (line : Bytes) : Option (Bytes × Bytes × Bytes) :=
  match find 32 line with
  | none => none
  | some i =>
      match find 32 (line.drop (i + 1)) with
      | none => none
      | some j =>
          let target := (line.drop (i + 1)).take j
          let protocol := (line.drop (i + 1)).drop (j + 1)
          let version := protocol.drop 5
          if line.take i = [] ∨ target = [] ∨ protocol.take 5 ≠ text "HTTP/" then none
          else if version.length = 3 ∧ version[1]? = some 46 then some (line.take i, target, version)
          else none

def readField (line : Bytes) : Option HeaderField :=
  match find 58 line with
  | none => none
  | some i =>
      if line.take i ≠ [] ∧ (line.take i).all isTokenChar then
        some ⟨line.take i, trimBlanks (line.drop (i + 1))⟩
      else none

/-- The fields up to the empty line, at most `fuel` lines. -/
def readFields : Nat → Bytes → Option (List HeaderField × Bytes)
  | 0, _ => none
  | fuel + 1, rest =>
      match readLine rest with
      | none => none
      | some (line, behind) =>
          if line = [] then some ([], behind)
          else
            match readField line, readFields fuel behind with
            | some field, some (fields, behind) => some (field :: fields, behind)
            | _, _ => none

/-- The values of the fields with a name, which is given in small letters. -/
def values (name : Bytes) (fields : List HeaderField) : List Bytes :=
  (fields.filter fun field => lower field.name = name).map HeaderField.value

/-- The chunks up to the last one, at most `fuel` of them, and what follows the trailers. -/
def readChunks : Nat → Bytes → Option (Bytes × Bytes)
  | 0, _ => none
  | fuel + 1, rest =>
      match readLine rest with
      | none => none
      | some (line, behind) =>
          match readNumeral 16 (lower (line.takeWhile fun c => c ≠ 59)) with
          | none => none
          | some 0 => (readFields behind.length behind).map fun (_, behind) => ([], behind)
          | some size =>
              if size ≤ behind.length ∧ (behind.drop size).take 2 = [13, 10] then
                (readChunks fuel (behind.drop (size + 2))).map fun (body, last) =>
                  (behind.take size ++ body, last)
              else none

/-- Whether the last coding is the chunked one. -/
def isChunked (codings : Bytes) : Bool :=
  lower (trimBlanks (codings.rtakeWhile fun c => c ≠ 44)) = text "chunked"

/-- The body, by the transfer coding or else by the length; a request with neither has none. -/
def readBody (fields : List HeaderField) (behind : Bytes) : Option (Bytes × Bytes) :=
  match (values (text "transfer-encoding") fields).getLast? with
  | some codings => if isChunked codings then readChunks behind.length behind else none
  | none =>
      match values (text "content-length") fields with
      | [] => some ([], behind)
      | value :: more =>
          match readNumeral 10 value with
          | none => none
          | some size =>
              if size ≤ behind.length ∧ more.all fun other => readNumeral 10 other = some size then
                some (behind.take size, behind.drop size)
              else none

/-- The request in front of a text, and what follows it. -/
def readRequest (message : Bytes) : Option (Request × Bytes) :=
  match readLine message with
  | none => none
  | some (line, rest) =>
      match readStart line, readFields rest.length rest with
      | some (method, target, version), some (fields, behind) =>
          (readBody fields behind).map fun (body, last) =>
            ({ method, target, version, fields, body }, last)
      | _, _ => none

/-! ## Lines -/

variable {line rest behind : Bytes}

theorem readLine_line (noReturn : 13 ∉ line) :
    readLine (line ++ [13, 10] ++ rest) = some (line, rest) := by
  induction line with
  | nil => rfl
  | cons c line ih =>
      obtain ⟨other, noReturn⟩ := not_or.mp (List.mem_cons.not.mp noReturn)
      rw [List.cons_append, List.cons_append, readLine, if_neg fun both => other both.1.symm,
        ih noReturn]
      rfl

theorem readLine_length (found : readLine rest = some (line, behind)) :
    line.length + 2 + behind.length = rest.length := by
  induction rest generalizing line with
  | nil => cases found
  | cons c rest ih =>
      rw [readLine] at found
      split at found
      · next ends =>
          obtain ⟨more, rfl⟩ := List.head?_eq_some_iff.mp ends.2
          cases found
          simp only [List.length_nil, List.length_cons, List.tail_cons]
          omega
      · obtain ⟨⟨line', behind'⟩, later, same⟩ := Option.map_eq_some_iff.mp found
        cases same
        have size := ih later
        simp only [List.length_cons]
        omega

/-! ## The head -/

/-- A field that can be written: its name is a token, and its value stays in its line. -/
def HeaderField.WellFormed (field : HeaderField) : Prop :=
  field.name ≠ [] ∧ field.name.all isTokenChar ∧ 13 ∉ field.value

/-- The line of a field. -/
def HeaderField.asLine (field : HeaderField) : Bytes := field.name ++ text ": " ++ field.value

/-- The field as it is read. -/
def HeaderField.trimmed (field : HeaderField) : HeaderField :=
  { field with value := trimBlanks field.value }

theorem token_notMem {name : Bytes} {c : UInt8} (token : name.all isTokenChar)
    (other : isTokenChar c = false) : c ∉ name := fun inside =>
  Bool.false_ne_true (other.symm.trans (List.all_eq_true.mp token c inside))

variable {field : HeaderField}

theorem HeaderField.WellFormed.asLine_notMem (formed : field.WellFormed) : 13 ∉ field.asLine := by
  have inName : 13 ∉ field.name := token_notMem formed.2.1 (by decide)
  have inColon : 13 ∉ text ": " := by decide
  rw [HeaderField.asLine, List.mem_append, List.mem_append, not_or, not_or]
  exact ⟨⟨inName, inColon⟩, formed.2.2⟩

theorem HeaderField.WellFormed.readField (formed : field.WellFormed) :
    readField field.asLine = some field.trimmed := by
  obtain ⟨some', token, -⟩ := formed
  have cut : field.asLine = field.name ++ 58 :: 32 :: field.value := by
    rw [HeaderField.asLine, List.append_assoc]
    rfl
  have noColon : 58 ∉ field.name := token_notMem token (by decide)
  have value : field.asLine.drop (field.name.length + 1) = 32 :: field.value := by
    rw [cut, List.drop_append, List.drop_eq_nil_of_le (by omega), List.nil_append,
      Nat.add_sub_cancel_left]
    rfl
  rw [cut] at value
  rw [HttpRequest.readField, cut, find_cut noColon]
  dsimp only
  rw [value, List.take_left, if_pos ⟨some', token⟩]
  rfl

/-- The lines of fields. -/
def lines (fields : List HeaderField) : Bytes :=
  fields.flatMap fun field => field.asLine ++ [13, 10]

theorem lines_cons (field : HeaderField) (fields : List HeaderField) :
    lines (field :: fields) = field.asLine ++ [13, 10] ++ lines fields := List.flatMap_cons

theorem lines_append (front back : List HeaderField) :
    lines (front ++ back) = lines front ++ lines back :=
  List.flatMap_append

theorem length_le_lines (fields : List HeaderField) : fields.length ≤ (lines fields).length := by
  induction fields with
  | nil => exact le_rfl
  | cons field fields ih =>
      rw [lines_cons, List.length_append, List.length_append, List.length_cons]
      simp only [List.length_cons]
      omega

/-- The lines of fields are read up to the empty one. -/
theorem readFields_lines {fields : List HeaderField} (formed : ∀ field ∈ fields, field.WellFormed)
    {fuel : Nat} (enough : fields.length < fuel) :
    readFields fuel (lines fields ++ [13, 10] ++ behind) =
      some (fields.map HeaderField.trimmed, behind) := by
  induction fields generalizing fuel with
  | nil =>
      obtain ⟨fuel, rfl⟩ := Nat.exists_eq_add_one_of_ne_zero (Nat.ne_of_gt enough)
      rw [readFields]
      rfl
  | cons field fields ih =>
      obtain ⟨fuel, rfl⟩ :=
        Nat.exists_eq_add_one_of_ne_zero (Nat.ne_of_gt (Nat.zero_lt_of_lt enough))
      have first := formed field List.mem_cons_self
      have later := ih (fun other inside => formed other (List.mem_cons_of_mem _ inside))
        (Nat.lt_of_succ_lt_succ enough)
      have some' : field.asLine ≠ [] := by simp [HeaderField.asLine, first.1]
      rw [List.append_assoc] at later
      rw [lines_cons, List.append_assoc, List.append_assoc, readFields,
        readLine_line first.asLine_notMem]
      dsimp only
      rw [if_neg some', first.readField, later]
      rfl

theorem readFields_length {fuel : Nat} {fields : List HeaderField}
    (found : readFields fuel rest = some (fields, behind)) : behind.length < rest.length := by
  induction fuel generalizing rest fields with
  | zero => cases found
  | succ fuel ih =>
      rw [readFields] at found
      split at found
      · cases found
      · next line next ends =>
          have size := readLine_length ends
          split at found
          · cases found
            omega
          · split at found
            · next field fields' behind' _ later =>
                cases found
                have less := ih later
                omega
            · cases found

/-- A request line. -/
theorem readStart_line {method target : Bytes} {major minor : UInt8} (named : method ≠ [])
    (noBlank : 32 ∉ method) (some' : target ≠ []) (noBlank' : 32 ∉ target) :
    readStart (method ++ 32 :: (target ++ 32 :: (text "HTTP/" ++ [major, 46, minor]))) =
      some (method, target, [major, 46, minor]) := by
  have behind (front back : Bytes) : (front ++ 32 :: back).drop (front.length + 1) = back := by
    rw [List.drop_append, List.drop_eq_nil_of_le (by omega), List.nil_append,
      Nat.add_sub_cancel_left]
    rfl
  rw [readStart, find_cut noBlank]
  dsimp only
  rw [behind, find_cut noBlank']
  dsimp only
  rw [behind, List.take_left, List.take_left, if_neg (by simp [named, some', text]),
    if_pos (by simp [text])]
  rfl

/-- **A head that has been written line by line is read again**, whatever follows it. -/
theorem readRequest_head {method target : Bytes} {major minor : UInt8} {fields : List HeaderField}
    (named : method.all isTokenChar) (nonempty : method ≠ []) (some' : target ≠ [])
    (chars : ∀ c ∈ target, c ≠ 32 ∧ c ≠ 13) (version : major ≠ 13 ∧ minor ≠ 13)
    (formed : ∀ field ∈ fields, field.WellFormed) :
    readRequest (method ++ 32 :: (target ++ 32 :: (text "HTTP/" ++ [major, 46, minor])) ++ [13, 10] ++
        (lines fields ++ [13, 10] ++ behind)) =
      (readBody (fields.map HeaderField.trimmed) behind).map fun (body, last) =>
        (⟨method, target, [major, 46, minor], fields.map HeaderField.trimmed, body⟩, last) := by
  have noBlank : 32 ∉ method := token_notMem named (by decide)
  have noReturn : 13 ∉ method := token_notMem named (by decide)
  have start := @readStart_line method target major minor nonempty noBlank some'
    fun inside => (chars 32 inside).1 rfl
  have inTarget : 13 ∉ target := fun inside => (chars 13 inside).2 rfl
  have oneLine : 13 ∉ method ++ 32 :: (target ++ 32 :: (text "HTTP/" ++ [major, 46, minor])) := by
    have protocol : 13 ∉ text "HTTP/" := by decide
    simp [noReturn, inTarget, protocol, Ne.symm version.1, Ne.symm version.2]
  have enough : fields.length < (lines fields ++ [13, 10] ++ behind).length := by
    have least := length_le_lines fields
    simp only [List.length_append, List.length_cons]
    omega
  rw [readRequest, readLine_line oneLine]
  dsimp only
  rw [start, readFields_lines formed enough]

/-! ## Values -/

variable {fields : List HeaderField} (name : Bytes)

theorem values_cons (field : HeaderField) (fields : List HeaderField) :
    values name (field :: fields) =
      if lower field.name = name then field.value :: values name fields
      else values name fields := by
  unfold values
  by_cases same : lower field.name = name
  · rw [List.filter_cons_of_pos (by simpa using same), if_pos same, List.map_cons]
  · rw [List.filter_cons_of_neg (by simpa using same), if_neg same]

theorem values_append (front back : List HeaderField) :
    values name (front ++ back) = values name front ++ values name back := by
  rw [values, List.filter_append, List.map_append]
  rfl

theorem values_trimmed (fields : List HeaderField) :
    values name (fields.map HeaderField.trimmed) = (values name fields).map trimBlanks := by
  induction fields with
  | nil => rfl
  | cons field fields ih =>
      have sameName : lower field.trimmed.name = lower field.name := rfl
      rw [List.map_cons, values_cons, values_cons, ih, sameName]
      by_cases same : lower field.name = name
      · rw [if_pos same, if_pos same, List.map_cons, HeaderField.trimmed]
      · rw [if_neg same, if_neg same]

/-- The values of a name do not change when fields with other names are taken out. -/
theorem values_filter {kept : HeaderField → Bool}
    (keeps : ∀ field, lower field.name = name → kept field) :
    values name (fields.filter kept) = values name fields := by
  rw [values, List.filter_filter, values]
  congr 1
  refine List.filter_congr fun field _ => ?_
  by_cases same : lower field.name = name
  · simp [same, keeps field same]
  · simp [same]

/-! ## Bodies -/

theorem readBody_none (noCoding : values (text "transfer-encoding") fields = [])
    (noLength : values (text "content-length") fields = []) :
    readBody fields behind = some ([], behind) := by
  rw [readBody, noCoding, noLength]
  rfl

theorem readBody_length {body : Bytes} (noCoding : values (text "transfer-encoding") fields = [])
    (some' : values (text "content-length") fields ≠ [])
    (same : ∀ value ∈ values (text "content-length") fields,
      readNumeral 10 value = some body.length) :
    readBody fields (body ++ behind) = some (body, behind) := by
  obtain ⟨value, more, lengths⟩ := List.exists_cons_of_ne_nil some'
  rw [lengths] at same
  rw [readBody, noCoding, lengths]
  dsimp only [List.getLast?_nil]
  rw [same value List.mem_cons_self]
  dsimp only
  rw [if_pos, List.take_left, List.drop_left]
  refine ⟨by rw [List.length_append]; omega, List.all_eq_true.mpr fun other inside => ?_⟩
  exact decide_eq_true (same other (List.mem_cons_of_mem _ inside))

/-- **A chunked text is longer than what it stands for.** -/
theorem readChunks_shorter {fuel : Nat} {body last : Bytes}
    (found : readChunks fuel rest = some (body, last)) :
    body.length + last.length < rest.length := by
  induction fuel generalizing rest body with
  | zero => cases found
  | succ fuel ih =>
      rw [readChunks] at found
      split at found
      · cases found
      · next line behind ends =>
          have size := readLine_length ends
          split at found
          · cases found
          · obtain ⟨⟨trailers, more⟩, trailing, same⟩ := Option.map_eq_some_iff.mp found
            cases same
            have less := readFields_length trailing
            rw [List.length_nil]
            omega
          · obtain ⟨inside, found⟩ := Option.ite_none_right_eq_some.mp found
            obtain ⟨⟨body', last'⟩, later, same⟩ := Option.map_eq_some_iff.mp found
            cases same
            have less := ih later
            rw [List.length_drop] at less
            rw [List.length_append, List.length_take]
            omega

theorem readBody_chunked {body last : Bytes} (coded : values (text "transfer-encoding") fields ≠ [])
    (found : readBody fields behind = some (body, last)) :
    body.length + last.length < behind.length := by
  obtain ⟨codings, only⟩ := Option.ne_none_iff_exists'.mp (mt List.getLast?_eq_none_iff.mp coded)
  rw [readBody, only] at found
  exact readChunks_shorter (Option.ite_none_right_eq_some.mp found).2

end HttpRequest
