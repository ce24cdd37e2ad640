import Mathlib.Data.List.Basic
import Mathlib.Data.List.Infix
import Mathlib.Data.List.DropRight

/-!
# Texts and their bytes

A text is the list of its characters, which are the Unicode scalar values. Its
bytes are its UTF-8 form.
-/
namespace Text

abbrev Str := List Char

/-- `str::as_bytes`. -/
def utf8 (s : Str) : List UInt8 := s.flatMap String.utf8EncodeChar

/-- `str::len`. -/
def len (s : Str) : Nat := (utf8 s).length

@[simp] theorem utf8_nil : utf8 [] = [] := rfl

theorem utf8_cons (c : Char) (s : Str) : utf8 (c :: s) = String.utf8EncodeChar c ++ utf8 s := rfl

theorem utf8_append (s t : Str) : utf8 (s ++ t) = utf8 s ++ utf8 t := List.flatMap_append

/-- A character of the ASCII range is one byte. -/
def isAscii (c : Char) : Bool := c.val ≤ 127

theorem utf8EncodeChar_ascii {c : Char} (h : isAscii c = true) :
    String.utf8EncodeChar c = [c.val.toUInt8] := by
  refine String.utf8EncodeChar_eq_singleton (Char.utf8Size_eq_one_iff.mpr ?_)
  simpa [isAscii] using h

theorem utf8_ascii {s : Str} (h : ∀ c ∈ s, isAscii c = true) : utf8 s = s.map (·.val.toUInt8) := by
  induction s with
  | nil => rfl
  | cons c s ih =>
    rw [utf8_cons, utf8EncodeChar_ascii (h c List.mem_cons_self),
      ih fun d hd => h d (List.mem_cons_of_mem c hd)]
    rfl

/-- `str::from_utf8`. -/
def fromUtf8 (bytes : List UInt8) : Option Str := bytes.toByteArray.utf8Decode?.map Array.toList

theorem fromUtf8_utf8 (s : Str) : fromUtf8 (utf8 s) = some s := by
  have hbytes : (utf8 s).toByteArray = s.utf8Encode := rfl
  rw [fromUtf8, hbytes, List.utf8Decode?_utf8Encode]
  rfl

/-- `char::is_whitespace`, the Unicode property `White_Space`. -/
def isWhitespace (c : Char) : Bool :=
  (9 ≤ c.toNat && c.toNat ≤ 13) || c.toNat == 0x20 || c.toNat == 0x85 || c.toNat == 0xa0 ||
    c.toNat == 0x1680 || (0x2000 ≤ c.toNat && c.toNat ≤ 0x200a) || c.toNat == 0x2028 ||
    c.toNat == 0x2029 || c.toNat == 0x202f || c.toNat == 0x205f || c.toNat == 0x3000

/-- `str::split_whitespace`. -/
def splitWhitespace (s : Str) : List Str := (s.splitOnP isWhitespace).filter (· ≠ [])

/-- `str::trim`. -/
def trim (s : Str) : Str := (s.dropWhile isWhitespace).rdropWhile isWhitespace

/-- `str::to_ascii_lowercase`. -/
def toAsciiLowercase (s : Str) : Str := s.map Char.toLower

/-- `str::eq_ignore_ascii_case`. -/
def eqIgnoreAsciiCase (s t : Str) : Bool := toAsciiLowercase s = toAsciiLowercase t

/-- `str::split_once`: what stands before and after the first occurrence. -/
def splitOnce (separator : Str) : Str → Option (Str × Str)
  | [] => if separator = [] then some ([], []) else none
  | c :: s =>
    if separator <+: c :: s then some ([], (c :: s).drop separator.length)
    else (splitOnce separator s).map fun (before, after) => (c :: before, after)

/-- `str::split`, for a separator that is not empty. There are no more pieces than
`fuel` allows, which is the length of the text. -/
def splitUpTo (separator : Str) : Nat → Str → List Str
  | 0, s => [s]
  | fuel + 1, s =>
    match splitOnce separator s with
    | none => [s]
    | some (before, after) => before :: splitUpTo separator fuel after

def split (separator : Str) (s : Str) : List Str := splitUpTo separator s.length s

/-- `str::strip_prefix`. -/
def stripPrefix (front s : Str) : Option Str := if front <+: s then some (s.drop front.length) else none

theorem splitOnce_char {c : Char} {before : Str} (h : c ∉ before) (after : Str) :
    splitOnce [c] (before ++ c :: after) = some (before, after) := by
  induction before with
  | nil => simp [splitOnce]
  | cons d before ih =>
    have hd : ¬ [c] <+: d :: (before ++ c :: after) := by
      rw [List.cons_prefix_cons]
      rintro ⟨rfl, -⟩
      exact h List.mem_cons_self
    rw [List.cons_append, splitOnce, if_neg hd, ih fun hmem => h (List.mem_cons_of_mem d hmem)]
    rfl

theorem stripPrefix_append (front rest : Str) : stripPrefix front (front ++ rest) = some rest := by
  rw [stripPrefix, if_pos (List.prefix_append front rest), List.drop_left]

theorem stripPrefix_eq_some {front s rest : Str} : stripPrefix front s = some rest ↔ s = front ++ rest := by
  constructor
  · intro h
    unfold stripPrefix at h
    split at h
    · obtain ⟨t, rfl⟩ := ‹front <+: s›
      rw [List.drop_left] at h
      cases h
      rfl
    · cases h
  · rintro rfl
    exact stripPrefix_append front rest

end Text
