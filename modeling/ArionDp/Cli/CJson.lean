import ArionDp.Cli.Ketopt
import ArionDp.Lib.Strtod

/-!
# The parser of configurations

`cJSON_Parse` on the bytes of a string. A read of the text, or a write to a string that is built, fails outside
of its buffer, and so does a loop without fuel; the offset of the buffer is threaded through the functions.

* `CNode`: a tree with its names and strings as bytes;
* `parseString`: the scan to the closing quote, and the decoding of what is in front of it;
* `parseValue`, `parseChildren`: values, and the items of arrays and objects;
* `cJsonParse`, `trnCliParseJson`.
-/

namespace ArionDp

open Wire Strtod

/-- A tree as `cJSON` builds it. Strings end at their first NUL. -/
inductive CNode
  | null
  | bool (b : Bool)
  | num (valuedouble : Double)
  | str (valuestring : Bytes)
  | arr (child : List CNode)
  | obj (child : List (Bytes × CNode))

/-- How a parsing function returns, and the offset of the buffer behind it. -/
inductive Parsed (α : Type)
  /-- The return of true -/
  | yes (a : α) (offset : ℕ)
  /-- The return of false -/
  | no (offset : ℕ)
  deriving DecidableEq

/-- A function that goes on where another one returned true. -/
def Parsed.andThen {α β : Type} (x : Parsed α) (f : α → ℕ → Option (Parsed β)) : Option (Parsed β) :=
  match x with
  | .yes a offset => f a offset
  | .no offset => some (.no offset)

/-- The C string in a piece of memory. -/
def cString (memory : Bytes) : Bytes := memory.takeWhile fun b => b ≠ 0

/-- The bytes of a text in ASCII. -/
def ascii (s : String) : Bytes := s.toList.map ch

/-- A byte that `buffer_skip_whitespace` skips. -/
def blank (b : U8) : Bool := b ≤ 32#8

section Parse

variable (content : Bytes)

/-- `buffer_skip_whitespace` -/
def bufferSkipWhitespace (offset : ℕ) : ℕ :=
  let offset := offset + ((content.drop offset).takeWhile blank).length
  if offset = content.length then offset - 1 else offset

/-- `skip_utf8_bom`, at the offset 0 -/
def skipUtf8Bom : ℕ :=
  if 4 < content.length ∧ [0xEF#8, 0xBB#8, 0xBF#8].isPrefixOf content then 3 else 0

/-! ## Numbers -/

/-- The characters that `parse_number` copies. -/
def numberChar (b : U8) : Bool :=
  isDigit b || b == ch '+' || b == ch '-' || b == ch 'e' || b == ch 'E' || b == ch '.'

/-- `parse_number`; the text for `strtod` has room for 63 characters -/
def parseNumber (offset : ℕ) : Option (Parsed CNode) :=
  let numberCString := ((content.drop offset).take 63).takeWhile numberChar
  match strtod numberCString with
  | none => some (.no offset)
  | some (number, afterEnd) => some (.yes (.num number) (offset + afterEnd))

/-! ## Strings -/

/-- The value of a hexadecimal digit. -/
def hexDigit (b : U8) : Option ℕ :=
  if ch '0' ≤ b ∧ b ≤ ch '9' then some (b.toNat - 48)
  else if ch 'A' ≤ b ∧ b ≤ ch 'F' then some (10 + b.toNat - 65)
  else if ch 'a' ≤ b ∧ b ≤ ch 'f' then some (10 + b.toNat - 97)
  else none

/-- The loop of `parse_hex4`, `n` rounds before its end. An invalid digit makes the whole number 0. -/
def hex4Loop : ℕ → ℕ → ℕ → Option ℕ
  | 0, _, h => some h
  | n + 1, i, h => do
    match hexDigit (← content[i]?) with
    | none => some 0
    | some d => hex4Loop n (i + 1) (if 0 < n then (h + d) <<< 4 else h + d)

/-- `parse_hex4` -/
def parseHex4 (input : ℕ) : Option ℕ := hex4Loop content 4 input 0

/-- The loop that encodes a code point, from its last byte on. -/
def utf8Loop : ℕ → ℕ → Bytes → ℕ × Bytes
  | 0, codepoint, out => (codepoint, out)
  | n + 1, codepoint, out => utf8Loop n (codepoint >>> 6) (BitVec.ofNat 8 ((codepoint ||| 0x80) &&& 0xBF) :: out)

/-- The bytes that `utf16_literal_to_utf8` writes of a code point; none if it is not valid. -/
def utf8Bytes (codepoint : ℕ) : Option Bytes :=
  if codepoint < 0x80 then some [BitVec.ofNat 8 (codepoint &&& 0x7F)]
  else do
    let (utf8Length, firstByteMark) ←
      if codepoint < 0x800 then some (2, 0xC0)
      else if codepoint < 0x10000 then some (3, 0xE0)
      else if codepoint ≤ 0x10FFFF then some (4, 0xF0)
      else none
    let (codepoint, out) := utf8Loop (utf8Length - 1) codepoint []
    some (BitVec.ofNat 8 ((codepoint ||| firstByteMark) &&& 0xFF) :: out)

/-- `utf16_literal_to_utf8`: the bytes to be written, and the length of the sequence in the text; `some none` is
the return of 0 -/
def utf16LiteralToUtf8 (inputPointer inputEnd : ℕ) : Option (Option (Bytes × ℕ)) := do
  if inputEnd < inputPointer + 6 then some none
  else
    let firstCode ← parseHex4 content (inputPointer + 2)
    if 0xDC00 ≤ firstCode ∧ firstCode ≤ 0xDFFF then some none
    else if 0xD800 ≤ firstCode ∧ firstCode ≤ 0xDBFF then
      let secondSequence := inputPointer + 6
      if inputEnd < secondSequence + 6 then some none
      else if (← content[secondSequence]?) ≠ ch '\\' then some none
      else if (← content[secondSequence + 1]?) ≠ ch 'u' then some none
      else
        let secondCode ← parseHex4 content (secondSequence + 2)
        if secondCode < 0xDC00 ∨ 0xDFFF < secondCode then some none
        else
          let codepoint := 0x10000 + (((firstCode &&& 0x3FF) <<< 10) ||| (secondCode &&& 0x3FF))
          some ((utf8Bytes codepoint).map fun bs => (bs, 12))
    else some ((utf8Bytes firstCode).map fun bs => (bs, 6))

/-- The scan for the closing quote from `inputEnd` on: where it is, and how many escape sequences are in front of it;
`some none` if the text ends. -/
def scanLoop : ℕ → ℕ → ℕ → Option (Option (ℕ × ℕ))
  | 0, _, _ => none
  | n + 1, inputEnd, skippedBytes =>
    if content.length ≤ inputEnd then some none
    else do
      let b ← content[inputEnd]?
      if b = ch '"' then some (some (inputEnd, skippedBytes))
      else if b = ch '\\' then
        if content.length ≤ inputEnd + 1 then some none
        else scanLoop n (inputEnd + 2) (skippedBytes + 1)
      else scanLoop n (inputEnd + 1) skippedBytes

/-- The character of an escape sequence that is not a code. -/
def escaped (b : U8) : Option U8 :=
  if b = ch 'b' then some 8#8
  else if b = ch 'f' then some 12#8
  else if b = ch 'n' then some 10#8
  else if b = ch 'r' then some 13#8
  else if b = ch 't' then some 9#8
  else if b = ch '"' ∨ b = ch '\\' ∨ b = ch '/' then some b
  else none

/-- A write at the end of the output, which has room for `size` bytes. -/
def put (size : ℕ) (output bs : Bytes) : Option Bytes :=
  if output.length + bs.length ≤ size then some (output ++ bs) else none

/-- The loop through a string literal that ends at `inputEnd`, and the NUL behind it. -/
def decodeLoop (inputEnd size : ℕ) : ℕ → ℕ → Bytes → Option (Parsed Bytes)
  | 0, _, _ => none
  | n + 1, inputPointer, output =>
    if inputEnd ≤ inputPointer then (put size output [0]).map fun _ => .yes output (inputEnd + 1)
    else do
      let b ← content[inputPointer]?
      if b ≠ ch '\\' then decodeLoop inputEnd size n (inputPointer + 1) (← put size output [b])
      -- the check for less than one byte
      else if inputEnd - inputPointer < 1 then some (.no inputPointer)
      else
        let c ← content[inputPointer + 1]?
        match escaped c with
        | some d => decodeLoop inputEnd size n (inputPointer + 2) (← put size output [d])
        | none =>
          if c = ch 'u' then
            match ← utf16LiteralToUtf8 content inputPointer inputEnd with
            | some (bs, sequenceLength) =>
              decodeLoop inputEnd size n (inputPointer + sequenceLength) (← put size output bs)
            | none => some (.no inputPointer)
          else some (.no inputPointer)

/-- `parse_string` -/
def parseString (offset : ℕ) : Option (Parsed Bytes) := do
  if (← content[offset]?) ≠ ch '"' then some (.no (offset + 1))
  else
    match ← scanLoop content (content.length + 1) (offset + 1) 0 with
    | none => some (.no (offset + 1))
    | some (inputEnd, skippedBytes) =>
      -- `allocation_length + sizeof("")`
      let size := inputEnd - offset - skippedBytes + 1
      (← decodeLoop content inputEnd size (content.length + 1) (offset + 1) []).andThen fun output offset =>
        some (.yes (cString output) offset)

/-! ## Arrays and objects -/

/-- The loop through the items behind commas, up to the byte that closes them. -/
def childLoop {α : Type} (item : ℕ → Option (Parsed α)) (last : U8) : ℕ → ℕ → List α → Option (Parsed (List α))
  | 0, _, _ => none
  | n + 1, offset, head => do
    (← item (bufferSkipWhitespace content (offset + 1))).andThen fun a offset =>
      let offset := bufferSkipWhitespace content offset
      if content[offset]? = some (ch ',') then childLoop item last n offset (head ++ [a])
      else if content[offset]? = some last then some (.yes (head ++ [a]) (offset + 1))
      else some (.no offset)

/-- What `parse_array` and `parse_object` do behind the opening bracket, which is at `offset`. -/
def parseChildren {α : Type} (item : ℕ → Option (Parsed α)) (last : U8) (offset : ℕ) :
    Option (Parsed (List α)) :=
  let offset := bufferSkipWhitespace content (offset + 1)
  if content[offset]? = some last then some (.yes [] (offset + 1))
  else if content.length ≤ offset then some (.no (offset - 1))
  -- step back to the character in front of the first item
  else childLoop content item last (content.length + 1) (offset - 1) []

/-- `parse_array` behind its check of the depth -/
def parseArray (value : ℕ → Option (Parsed CNode)) (offset : ℕ) : Option (Parsed CNode) := do
  if (← content[offset]?) ≠ ch '[' then some (.no offset)
  else (← parseChildren content value (ch ']') offset).andThen fun child offset => some (.yes (.arr child) offset)

/-- A name, a colon and a value. -/
def parseMember (value : ℕ → Option (Parsed CNode)) (offset : ℕ) : Option (Parsed (Bytes × CNode)) := do
  (← parseString content offset).andThen fun name offset =>
    let offset := bufferSkipWhitespace content offset
    if content[offset]? ≠ some (ch ':') then some (.no offset)
    else do
      (← value (bufferSkipWhitespace content (offset + 1))).andThen fun a offset => some (.yes (name, a) offset)

/-- `parse_object` behind its check of the depth -/
def parseObject (value : ℕ → Option (Parsed CNode)) (offset : ℕ) : Option (Parsed CNode) := do
  if content[offset]? ≠ some (ch '{') then some (.no offset)
  else (← parseChildren content (parseMember content value) (ch '}') offset).andThen fun child offset =>
    some (.yes (.obj child) offset)

/-- `parse_value`, for given functions of arrays and objects -/
def parseValueWith (array object : ℕ → Option (Parsed CNode)) (offset : ℕ) : Option (Parsed CNode) :=
  if (ascii "null").isPrefixOf (content.drop offset) then some (.yes .null (offset + 4))
  else if (ascii "false").isPrefixOf (content.drop offset) then some (.yes (.bool false) (offset + 5))
  else if (ascii "true").isPrefixOf (content.drop offset) then some (.yes (.bool true) (offset + 4))
  else match content[offset]? with
    | none => some (.no offset)
    | some b =>
      if b = ch '"' then do
        (← parseString content offset).andThen fun valuestring offset => some (.yes (.str valuestring) offset)
      else if b = ch '-' ∨ isDigit b then parseNumber content offset
      else if b = ch '[' then array offset
      else if b = ch '{' then object offset
      else some (.no offset)

/-- `parse_value`, `room` levels above `CJSON_NESTING_LIMIT`: there, `parse_array` and `parse_object` return false at
once. -/
def parseValue : ℕ → ℕ → Option (Parsed CNode)
  | 0 => parseValueWith content (fun offset => some (.no offset)) fun offset => some (.no offset)
  | room + 1 => parseValueWith content (parseArray content (parseValue room)) (parseObject content (parseValue room))

end Parse

/-- `CJSON_NESTING_LIMIT` -/
abbrev cJsonNestingLimit : ℕ := 1000

/-- `cJSON_Parse` of the string in `value`; an error is the position that `cJSON_GetErrorPtr` points to -/
def cJsonParse (value : Bytes) : Option (Except ℕ CNode) := do
  let content := cString value ++ [0]
  match ← parseValue content cJsonNestingLimit (bufferSkipWhitespace content (skipUtf8Bom content)) with
  | .yes item _ => some (.ok item)
  | .no offset => some (.error (if offset < content.length then offset else content.length - 1))

/-- `trn_cli_parse_json`; an error is the message -/
def trnCliParseJson (buf : Bytes) : Option (Except Bytes CNode) := do
  match ← cJsonParse buf with
  | .ok confJson => some (.ok confJson)
  | .error position =>
    some (.error (ascii "Error: parsing json string before: " ++ (cString buf).drop position ++ ascii ".\n"))

end ArionDp
