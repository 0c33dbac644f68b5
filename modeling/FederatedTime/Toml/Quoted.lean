import FederatedTime.Toml.Blank

/-!
# Quoted text

Text between quotes comes in four kinds: in one line or in several, and with escapes or raw.
Escapes stand between double quotes, raw text between single ones. Text of several lines stands
between three quotes, begins behind a line end that directly follows them, and has one character
for each line end in it.
-/

namespace FederatedTime.Toml

open Text (Reader)

/-- The quote of a kind of text. -/
def quoteOf (raw : Bool) : Char := if raw then '\x27' else '"'

/-- Whether a number is that of a character. -/
def isScalar (n : Nat) : Bool := n < 0xD800 || (0xDFFF < n && n < 0x110000)

/-- Read the number of a character in `width` hexadecimal digits. -/
def codePoint (width : Nat) : Reader Char := fun cs =>
  let digits := cs.take width
  let n := Text.value 16 Text.hexDigit? digits
  if digits.length = width ∧ digits.all (fun c => (Text.hexDigit? c).isSome) ∧ isScalar n then
    some (Char.ofNat n, cs.drop width)
  else none

/-- Read an escape behind its backslash. -/
def escape : Reader Char
  | 'b' :: rest => some ('\x08', rest)
  | 't' :: rest => some ('\t', rest)
  | 'n' :: rest => some ('\n', rest)
  | 'f' :: rest => some ('\x0c', rest)
  | 'r' :: rest => some ('\r', rest)
  | '"' :: rest => some ('"', rest)
  | '\\' :: rest => some ('\\', rest)
  | 'u' :: rest => codePoint 4 rest
  | 'U' :: rest => codePoint 8 rest
  | _ => none

/-- The text behind a line end that a backslash takes back, with the blanks after it. -/
def foldedLine? (cs : List Char) : Option (List Char) :=
  (lineEnd? (skipSpaces cs)).map skipLines

theorem length_codePoint_le {width : Nat} {cs rest : List Char} {c : Char}
    (h : codePoint width cs = some (c, rest)) : rest.length ≤ cs.length := by
  simp only [codePoint] at h
  split at h
  · cases h
    simp
  · cases h

theorem length_escape_lt {cs rest : List Char} {c : Char} (h : escape cs = some (c, rest)) :
    rest.length < cs.length := by
  unfold escape at h
  split at h
  case h_8 | h_9 =>
    have := length_codePoint_le h
    simp only [List.length_cons]
    omega
  all_goals cases h <;> simp

theorem length_foldedLine?_lt {cs rest : List Char} (h : foldedLine? cs = some rest) :
    rest.length < cs.length := by
  obtain ⟨mid, hmid, rfl⟩ := Option.map_eq_some_iff.1 h
  have h1 := length_lineEnd?_lt hmid
  have h2 := length_skipLines_le mid
  have h3 : (skipSpaces cs).length ≤ cs.length := (List.dropWhile_sublist _).length_le
  omega

/-- Read a line of text up to its closing quote. -/
def lineText (raw : Bool) : Reader (List Char)
  | [] => none
  | c :: rest =>
    if c = quoteOf raw then some ([], rest)
    else if c = '\\' ∧ !raw then
      match _h : escape rest with
      | some (e, rest) => (lineText raw rest).map fun (text, rest) => (e :: text, rest)
      | none => none
    else if isPrintable c then
      (lineText raw rest).map fun (text, rest) => (c :: text, rest)
    else none
termination_by cs => cs.length
decreasing_by
  · have := length_escape_lt _h
    simp only [List.length_cons]
    omega
  · simp

/-- Read several lines of text up to the three closing quotes; one or two more quotes before them
belong to the text. -/
def blockText (raw : Bool) : Reader (List Char)
  | [] => none
  | c :: rest =>
    if c = quoteOf raw then
      let quotes := ((c :: rest).takeWhile (· = c)).length
      if 3 ≤ quotes then
        let inside := min (quotes - 3) 2
        some (List.replicate inside c, (c :: rest).drop (inside + 3))
      else (blockText raw rest).map fun (text, rest) => (c :: text, rest)
    else if c = '\\' ∧ !raw then
      match _h : escape rest with
      | some (e, rest) => (blockText raw rest).map fun (text, rest) => (e :: text, rest)
      | none =>
        match _h' : foldedLine? rest with
        | some rest => blockText raw rest
        | none => none
    else
      match _h : lineEnd? (c :: rest) with
      | some rest => (blockText raw rest).map fun (text, rest) => ('\n' :: text, rest)
      | none =>
        if isPrintable c then
          (blockText raw rest).map fun (text, rest) => (c :: text, rest)
        else none
termination_by cs => cs.length
decreasing_by
  · simp
  · have := length_escape_lt _h
    simp only [List.length_cons]
    omega
  · have := length_foldedLine?_lt _h'
    simp only [List.length_cons]
    omega
  · exact length_lineEnd?_lt _h
  · simp

/-- Read text between quotes of a kind, in one line or in several. -/
def quotedText (raw : Bool) : Reader String := fun cs =>
  let q := quoteOf raw
  let text := match Text.word [q, q, q] cs with
    | some (_, rest) => blockText raw ((lineEnd? rest).getD rest)
    | none => (Text.mark q cs).bind fun (_, rest) => lineText raw rest
  text.map fun (text, rest) => (String.ofList text, rest)

/-! ## Keys -/

/-- Whether a character may stand in a key without quotes. -/
def isBare (c : Char) : Bool :=
  ('a' ≤ c && c ≤ 'z') || ('A' ≤ c && c ≤ 'Z') || ('0' ≤ c && c ≤ '9') || c = '_' || c = '-'

/-- Read a key: in quotes, or bare. -/
def key : Reader String := fun cs =>
  match cs with
  | '"' :: rest => (lineText false rest).map fun (text, rest) => (String.ofList text, rest)
  | '\x27' :: rest => (lineText true rest).map fun (text, rest) => (String.ofList text, rest)
  | _ =>
    match cs.takeWhile isBare with
    | [] => none
    | text => some (String.ofList text, cs.dropWhile isBare)

/-- The greatest number of keys in a row, and the greatest depth of a value. -/
def maxDepth : Nat := 79

/-- Read at most `room` keys with points between them, and the spaces around them. -/
def keyPath : (room : Nat) → Reader (List String)
  | 0, _ => none
  | room + 1, cs => do
    let (k, cs) ← key (skipSpaces cs)
    match skipSpaces cs with
    | '.' :: rest =>
      let (ks, rest) ← keyPath room rest
      pure (k :: ks, rest)
    | cs => pure ([k], cs)

end FederatedTime.Toml
