import Mathlib
import Toolsmith.Proofs.Json.Numeral
import Toolsmith.Protocol.Message
import Toolsmith.Transport.Lines

/-! # Responses framed as lines

One line for each message is enough for responses. The text of a JSON value has no character below
the space (`Json.printable_write`), so that it never breaks a line; it stands between marks that are
not blank, so that trimming keeps it whole; and its bytes hold the end of a line only where the text
has one (`lineEnd_mem_toUTF8`). Whatever responses are sent, and whatever blank lines come between
them, reading the bytes again yields the texts of the responses in order, and nothing more
(`LineStream.receptions_of_responses`).
-/

namespace Toolsmith

namespace Json

/-- No character is below the space. -/
def Printable (chars : List Char) : Prop := ∀ c ∈ chars, 0x20 ≤ c.toNat

@[simp] theorem printable_nil : Printable [] := fun _ absent => absurd absent List.not_mem_nil

@[simp] theorem printable_cons {c : Char} {chars : List Char} :
    Printable (c :: chars) ↔ 0x20 ≤ c.toNat ∧ Printable chars := List.forall_mem_cons

@[simp] theorem printable_append {chars more : List Char} :
    Printable (chars ++ more) ↔ Printable chars ∧ Printable more := List.forall_mem_append

theorem Printable.sublist {chars more : List Char} (printable : Printable more)
    (kept : chars.Sublist more) : Printable chars :=
  fun c inside => printable c (kept.subset inside)

theorem printable_of_digits {chars : List Char} (digits : ∀ c ∈ chars, Scan.isDigit c = true) :
    Printable chars := by
  intro c inside
  have digit := digits c inside
  simp only [Scan.isDigit, Bool.and_eq_true, decide_eq_true_eq] at digit
  have above : '0'.toNat ≤ c.toNat := digit.1
  exact le_trans (by decide) above

theorem printable_natText (n : Nat) : Printable (natText n) :=
  printable_of_digits (isDigit_of_mem_natText n)

theorem printable_decimalText (decimal : Decimal) : Printable (decimalText decimal) := by
  have digits := printable_natText decimal.digits
  have zeros (count : Nat) : Printable (List.replicate count '0') :=
    printable_of_digits (isDigit_of_mem_replicate count)
  have first (count : Nat) := digits.sublist (List.take_sublist count (natText decimal.digits))
  have last (count : Nat) := digits.sublist (List.drop_sublist count (natText decimal.digits))
  unfold decimalText
  dsimp only
  split_ifs <;> simp [-List.drop_one, digits, zeros, first, last, printable_natText]

/-- A number is written without characters that break a line. -/
theorem printable_numberText (number : Number) : Printable (numberText number) := by
  cases number with
  | integer value =>
      change Printable (integerText value)
      unfold integerText
      split_ifs <;> simp [printable_natText]
  | float value =>
      change Printable (floatText value)
      unfold floatText
      split_ifs <;> simp [printable_decimalText]

theorem printable_escapeChar (c : Char) : Printable (escapeChar c) := by
  have digit : ∀ n < 16, 0x20 ≤ (Nat.digitChar n).toNat := by decide
  unfold escapeChar
  split_ifs with _ _ _ _ _ _ _ control
  all_goals simp
  · exact ⟨digit _ (by omega), digit _ (by omega)⟩
  · exact Nat.le_of_not_lt control

theorem printable_stringText (text : String) : Printable (stringText text) := by
  have body : Printable (text.toList.flatMap escapeChar) := by
    intro c inside
    obtain ⟨written, _, inside⟩ := List.mem_flatMap.mp inside
    exact printable_escapeChar written c inside
  simp [stringText, body]

mutual

/-- The text of a value has no character below the space. -/
theorem printable_write : (json : Json) → Printable json.write
  | .null => by simp [write]
  | .bool true => by simp [write]
  | .bool false => by simp [write]
  | .number value => printable_numberText value
  | .string text => printable_stringText text
  | .array [] => by simp [write]
  | .array (item :: rest) => by
      simp [write, printable_write item, printable_writeItems rest]
  | .object [] => by simp [write]
  | .object ((name, value) :: rest) => by
      simp [write, printable_stringText name, printable_write value, printable_writeMembers rest]

theorem printable_writeItems : (items : List Json) → Printable (writeItems items)
  | [] => printable_nil
  | item :: rest => by simp [writeItems, printable_write item, printable_writeItems rest]

theorem printable_writeMembers : (members : List (String × Json)) → Printable (writeMembers members)
  | [] => printable_nil
  | (name, value) :: rest => by
      simp [writeMembers, printable_stringText name, printable_write value,
        printable_writeMembers rest]

end

end Json

section Bytes

/-- The loop over the bytes lists those from the index on, behind what was found. -/
theorem toList_loop (bytes : ByteArray) (index : Nat) (found : List UInt8) :
    ByteArray.toList.loop bytes index found = found.reverse ++ bytes.data.toList.drop index := by
  fun_induction ByteArray.toList.loop bytes index found with
  | case1 index found inside ih =>
      have next : bytes.data.toList.drop index =
          bytes.get! index :: bytes.data.toList.drop (index + 1) := by
        have present : index < bytes.data.size := inside
        rw [List.drop_eq_getElem_cons (by simpa using present)]
        exact congrArg (· :: _) (getElem!_pos bytes.data index present).symm
      rw [ih, next, List.reverse_cons, List.append_assoc]
      rfl
  | case2 index found outside =>
      have past : bytes.data.toList.length ≤ index := Nat.le_of_not_lt outside
      rw [List.drop_eq_nil_of_le past, List.append_nil]

theorem toList_eq_data (bytes : ByteArray) : bytes.toList = bytes.data.toList :=
  toList_loop bytes 0 []

theorem toList_toUTF8 (text : String) :
    text.toUTF8.toList = text.toList.flatMap String.utf8EncodeChar := by
  have encoded : text.toUTF8 = text.toList.utf8Encode := by
    rw [String.toUTF8_eq_toByteArray, ← String.toByteArray_ofList, String.ofList_toList]
  rw [encoded, toList_eq_data, List.utf8Encode, List.data_toByteArray]

/-- What a text is encoded as is read as this text. -/
theorem decodeText?_toUTF8 (text : String) : decodeText? text.toUTF8.toList = some text := by
  have whole : (⟨text.toUTF8.toList.toArray⟩ : ByteArray) = text.toUTF8 := by
    rw [toList_eq_data]
  unfold decodeText? String.fromUTF8?
  rw [whole, String.toUTF8_eq_toByteArray, dif_pos text.isValidUTF8]
  rfl

/-- A character beyond the seven-bit ones is encoded by bytes beyond them. -/
theorem high_of_utf8EncodeChar {c : Char} (wide : ¬ c.val.toNat ≤ 127) :
    ∀ byte ∈ String.utf8EncodeChar c, 128 ≤ byte.toNat := by
  have kept (n : Nat) (above : 128 ≤ n) (below : n < 256) : 128 ≤ (UInt8.ofNat n).toNat := by
    rw [UInt8.toNat_ofNat']
    exact le_of_le_of_eq above (Nat.mod_eq_of_lt below).symm
  unfold String.utf8EncodeChar
  dsimp only
  rw [if_neg wide]
  split_ifs with two three
  · simp only [List.forall_mem_cons]
    exact ⟨kept _ (by omega) (by omega), kept _ (by omega) (by omega), by simp⟩
  · simp only [List.forall_mem_cons]
    exact ⟨kept _ (by omega) (by omega), kept _ (by omega) (by omega),
      kept _ (by omega) (by omega), by simp⟩
  · simp only [List.forall_mem_cons]
    exact ⟨kept _ (by omega) (by omega), kept _ (by omega) (by omega),
      kept _ (by omega) (by omega), kept _ (by omega) (by omega), by simp⟩

/-- The byte that ends a line encodes the character that does, and is no part of another one. -/
theorem lineEnd_mem_utf8EncodeChar {c : Char} (inside : lineEnd ∈ String.utf8EncodeChar c) :
    c = '\n' := by
  by_cases ascii : c.val.toNat ≤ 127
  · have same : lineEnd.toNat = c.val.toNat := by
      simp only [String.utf8EncodeChar, ascii, ↓reduceIte, List.mem_singleton] at inside
      rw [inside, UInt8.toNat_ofNat']
      exact Nat.mod_eq_of_lt (Nat.lt_of_le_of_lt ascii (by decide))
    exact Char.ext (UInt32.toNat_inj.mp same.symm)
  · have high := high_of_utf8EncodeChar ascii lineEnd inside
    exact absurd high (by decide)

theorem lineEnd_mem_toUTF8 {text : String} (inside : lineEnd ∈ text.toUTF8.toList) :
    '\n' ∈ text.toList := by
  rw [toList_toUTF8] at inside
  obtain ⟨c, present, inside⟩ := List.mem_flatMap.mp inside
  rwa [← lineEnd_mem_utf8EncodeChar inside]

end Bytes

namespace Text

/-- Nothing is trimmed where the first and the last character are not blank. -/
theorem trimBlank_eq_self {chars : List Char} (first : ∀ c ∈ chars.head?, isBlank c = false)
    (last : ∀ c ∈ chars.getLast?, isBlank c = false) : trimBlank chars = chars := by
  have kept {chars : List Char} (first : ∀ c ∈ chars.head?, isBlank c = false) :
      chars.dropWhile isBlank = chars := by
    cases chars with
    | nil => rfl
    | cons c rest => rw [List.dropWhile_cons_of_neg (by simp [first c rfl])]
  unfold trimBlank
  rw [kept first, kept (by rwa [List.head?_reverse]), List.reverse_reverse]

theorem trimBlank_of_blank {chars : List Char} (blank : ∀ c ∈ chars, isBlank c = true) :
    trimBlank chars = [] := by
  unfold trimBlank
  rw [List.dropWhile_eq_nil_iff.mpr blank]
  rfl

end Text

/-- A text that travels as a line: it breaks no line, and trimming leaves it as it is. -/
structure Travels (text : String) : Prop where
  unbroken : '\n' ∉ text.toList
  trimmed : Text.trimBlank text.toList = text.toList
  visible : text.toList ≠ []

/-- The text of a response travels as a line. -/
theorem Response.travels (response : Response) : Travels response.text := by
  have written : response.text.toList = response.encode.write := String.toList_ofList
  obtain ⟨inner, between⟩ : ∃ inner, response.encode.write = '\x7b' :: (inner ++ ['\x7d']) :=
    ⟨_, rfl⟩
  rw [← written] at between
  refine ⟨?_, ?_, ?_⟩
  · intro broken
    rw [written] at broken
    have above := Json.printable_write response.encode '\n' broken
    exact absurd above (by decide)
  · apply Text.trimBlank_eq_self
    · rw [between]
      rintro c ⟨⟩
      rfl
    · rw [between, ← List.cons_append, List.getLast?_concat]
      rintro c ⟨⟩
      rfl
  · rw [between]
    exact List.cons_ne_nil _ _

/-- A line of blanks. -/
structure BlankLine (line : String) : Prop where
  unbroken : '\n' ∉ line.toList
  blank : ∀ c ∈ line.toList, Text.isBlank c = true

/-- Lines among which blank ones were put. -/
inductive Spaced : List String → List String → Prop
  | nil : Spaced [] []
  | line (text : String) {lines spaced : List String} (rest : Spaced lines spaced) :
      Spaced (text :: lines) (text :: spaced)
  | blank {text : String} {lines spaced : List String} (blank : BlankLine text)
      (rest : Spaced lines spaced) : Spaced lines (text :: spaced)

theorem splitLines_append {line : List UInt8} (unbroken : lineEnd ∉ line) (rest : List UInt8) :
    splitLines (line ++ lineEnd :: rest) = line :: splitLines rest := by
  induction line with
  | nil => simp [splitLines]
  | cons byte line ih =>
      rw [List.mem_cons, not_or] at unbroken
      simp [splitLines, ih unbroken.2, Ne.symm unbroken.1]

namespace Transport

variable {σ : Type}

/-- Send texts one after the other. -/
def sendAll (transport : Transport σ) : σ → List String → Except ProtocolError σ
  | state, [] => .ok state
  | state, text :: rest =>
    match transport.send state text with
    | (.ok (), state) => transport.sendAll state rest
    | (.error error, _) => .error error

/-- What receiving yields, a number of times in a row. -/
def receptions (transport : Transport σ) : Nat → σ → List Reception
  | 0, _ => []
  | count + 1, state =>
    (transport.receive state).1 :: transport.receptions count (transport.receive state).2

end Transport

namespace LineStream

/-- The lines of what was written are the texts that were sent. -/
theorem splitLines_written {lines : List String} (unbroken : ∀ line ∈ lines, '\n' ∉ line.toList)
    (input : List (List UInt8)) :
    splitLines (written ⟨input, lines⟩) = lines.map (·.toUTF8.toList) := by
  induction lines with
  | nil => rfl
  | cons line rest ih =>
      rw [List.forall_mem_cons] at unbroken
      have split : written ⟨input, line :: rest⟩ =
          line.toUTF8.toList ++ lineEnd :: written ⟨input, rest⟩ := by
        simp [written]
      rw [split, splitLines_append (fun inside => unbroken.1 (lineEnd_mem_toUTF8 inside)),
        ih unbroken.2, List.map_cons]

theorem sendAll_transport (stream : LineStream) (texts : List String) :
    transport.sendAll stream texts = .ok { stream with output := stream.output ++ texts } := by
  induction texts generalizing stream with
  | nil => simp [Transport.sendAll]
  | cons text rest ih =>
      change transport.sendAll { stream with output := stream.output ++ [text] } rest = _
      rw [ih, List.append_assoc]
      rfl

theorem next_of_travels {text : String} (travels : Travels text) (rest : List (List UInt8)) :
    next (text.toUTF8.toList :: rest) = (.message text, rest) := by
  have shown : text.toList.isEmpty = false := List.isEmpty_eq_false_iff.mpr travels.visible
  simp only [next, decodeText?_toUTF8, travels.trimmed, shown, Bool.false_eq_true, ↓reduceIte,
    String.ofList_toList]

theorem next_of_blank {line : String} (blank : BlankLine line) (rest : List (List UInt8)) :
    next (line.toUTF8.toList :: rest) = next rest := by
  simp only [next, decodeText?_toUTF8, Text.trimBlank_of_blank blank.blank, List.isEmpty_nil,
    ↓reduceIte]

theorem receptions_nil (count : Nat) (output : List String) :
    transport.receptions count ⟨[], output⟩ = List.replicate count .gone := by
  induction count with
  | zero => rfl
  | succ count ih => exact congrArg (_ :: ·) ih

/-- Lines that travel are received one by one, past the blank ones, and then the stream has
ended. -/
theorem receptions_of_spaced {texts lines : List String} (spaced : Spaced texts lines)
    (travel : ∀ text ∈ texts, Travels text) (more : Nat) (output : List String) :
    transport.receptions (texts.length + more) ⟨lines.map (·.toUTF8.toList), output⟩ =
      texts.map .message ++ List.replicate more .gone := by
  induction spaced with
  | nil => simpa using receptions_nil more output
  | line text rest ih =>
      rw [List.forall_mem_cons] at travel
      rw [List.length_cons, Nat.add_right_comm]
      simp only [Transport.receptions, transport, List.map_cons, next_of_travels travel.1]
      exact congrArg (_ :: ·) (ih travel.2)
  | blank blank rest ih =>
      rw [← ih travel]
      generalize _ + more = count
      cases count with
      | zero => rfl
      | succ count =>
          simp only [Transport.receptions, transport, List.map_cons, next_of_blank blank]

/-- Texts that can travel make no line that has a line end in it. -/
theorem unbroken_of_spaced {texts lines : List String} (spaced : Spaced texts lines)
    (travel : ∀ text ∈ texts, Travels text) : ∀ line ∈ lines, '\n' ∉ line.toList := by
  induction spaced with
  | nil => simp
  | line text rest ih =>
      rw [List.forall_mem_cons] at travel ⊢
      exact ⟨travel.1.unbroken, ih travel.2⟩
  | blank blank rest ih =>
      rw [List.forall_mem_cons]
      exact ⟨blank.unbroken, ih travel⟩

/-- **Framing is lossless.** Responses can be sent over a fresh stream, all of them; and when the
bytes that were written are read again, with any blank lines put before, between and after the
responses, their texts are received in order, and after that nothing but the end of the stream. -/
theorem receptions_of_responses (responses : List Response) (input : List (List UInt8)) :
    ∃ sent, transport.sendAll ⟨input, []⟩ (responses.map Response.text) = .ok sent ∧
      ∀ lines, Spaced sent.output lines → ∀ more,
        transport.receptions (responses.length + more)
            (ofBytes { sent with output := lines }.written) =
          responses.map (fun response => .message response.text) ++
            List.replicate more .gone := by
  refine ⟨_, sendAll_transport _ _, ?_⟩
  intro lines spaced more
  rw [List.nil_append] at spaced
  have travel : ∀ text ∈ responses.map Response.text, Travels text := by
    intro text inside
    obtain ⟨response, _, rfl⟩ := List.mem_map.mp inside
    exact response.travels
  have received := receptions_of_spaced spaced travel more []
  rw [List.length_map, List.map_map] at received
  unfold ofBytes
  rw [splitLines_written (unbroken_of_spaced spaced travel)]
  exact received

/-- A result and an error whose texts hold ends of lines, of three kinds. -/
def brokenTexts : List Response :=
  [.success (.string "a\nb") (.object [("line\r", .string "\u2028")]),
    .failure .null (.parse "one\ntwo")]

/-- They are received past blank lines, one of which ends with a carriage return. -/
theorem receptions_of_responses_brokenTexts :
    ∃ lines, Spaced (brokenTexts.map Response.text) lines ∧ lines.length = 6 ∧
      transport.receptions 4 (ofBytes (written ⟨[], lines⟩)) =
        brokenTexts.map (fun response => .message response.text) ++ [.gone, .gone] := by
  have spaced : Spaced (brokenTexts.map Response.text)
      ([" \t", "\r"] ++ (brokenTexts.map Response.text).take 1 ++ ["", "\u3000"] ++
        (brokenTexts.map Response.text).drop 1) := by
    have blank {line : String}
      (all : line.toList.all (fun c => Text.isBlank c && c != '\n') = true) :
        BlankLine line := by
      rw [List.all_eq_true] at all
      refine ⟨fun broken => ?_, fun c inside => ?_⟩
      · exact absurd (all '\n' broken) (by decide)
      · exact (Bool.and_eq_true _ _ ▸ all c inside).1
    apply Spaced.blank (blank (by decide))
    apply Spaced.blank (blank (by decide))
    apply Spaced.line
    apply Spaced.blank (blank (by decide))
    apply Spaced.blank (blank (by decide))
    exact Spaced.line _ Spaced.nil
  obtain ⟨sent, sends, received⟩ := receptions_of_responses brokenTexts []
  rw [sendAll_transport] at sends
  cases sends
  exact ⟨_, spaced, rfl, received _ spaced 2⟩

end LineStream

end Toolsmith
