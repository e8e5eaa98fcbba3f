import KafScale.Lib.Utf8

/-!
The functions of Go's `strings` package that the modelled code calls, on the
bytes of a Go string. Those that look at runes decode them as `Utf8` does.
Their ASCII fast paths agree with the general definitions below, except in
`ToLower`, where the fast path is the only one that does not go through
`unicode.ToLower`: that function, on runes, is the parameter `lowerRune`.
-/
namespace GoStrings
open Utf8

/-- `strings.TrimLeftFunc`: drops the leading runes `f` holds of. -/
def trimLeftFrom (f : Nat → Bool) : Nat → List UInt8 → List UInt8
  | 0, s => s
  | _ + 1, [] => []
  | fuel + 1, s => if f (decodeRune s).1 then trimLeftFrom f fuel (s.drop (decodeRune s).2) else s

def trimLeftFunc (s : List UInt8) (f : Nat → Bool) : List UInt8 := trimLeftFrom f s.length s

/-- `lastIndexFunc(s, f, false)`: where the last rune `f` does not hold of starts. -/
def lastIndexFrom (f : Nat → Bool) : Nat → List UInt8 → Option Nat
  | 0, _ => none
  | _ + 1, [] => none
  | fuel + 1, s =>
    let (r, width) := decodeLastRune s
    if f r then lastIndexFrom f fuel (s.take (s.length - width)) else some (s.length - width)

/-- `strings.TrimRightFunc`. The kept rune's width is read forwards again, as Go does. -/
def trimRightFunc (s : List UInt8) (f : Nat → Bool) : List UInt8 :=
  match lastIndexFrom f s.length s with
  | none => []
  | some i =>
    match s[i]? with
    | some b => if 0x80 ≤ b.toNat then s.take (i + (decodeRune (s.drop i)).2) else s.take (i + 1)
    | none => s.take (i + 1)

def trimFunc (s : List UInt8) (f : Nat → Bool) : List UInt8 := trimRightFunc (trimLeftFunc s f) f

/-- `strings.TrimSpace`. -/
def trimSpace (s : List UInt8) : List UInt8 := trimFunc s isSpace

/-- `strings.Trim` with a cutset of ASCII runes, which Go trims byte by byte:
    an ASCII byte is always a whole rune, so that is the same as rune by rune. -/
def trim (s : List UInt8) (cutset : List Nat) : List UInt8 := trimFunc s fun r => cutset.contains r

theorem trimLeftFrom_suffix (f : Nat → Bool) : ∀ (fuel : Nat) (s : List UInt8), trimLeftFrom f fuel s <:+ s
  | 0, s => List.suffix_refl s
  | _ + 1, [] => List.suffix_refl []
  | fuel + 1, b :: bs => by
    unfold trimLeftFrom
    split
    · exact (trimLeftFrom_suffix f fuel _).trans (List.drop_suffix _ _)
    · exact List.suffix_refl _

theorem trimRightFunc_isPrefix (s : List UInt8) (f : Nat → Bool) : trimRightFunc s f <+: s := by
  unfold trimRightFunc
  repeat' split
  all_goals first | exact List.nil_prefix | exact List.take_prefix _ _

theorem trimSpace_isInfix (s : List UInt8) : trimSpace s <:+: s :=
  (trimRightFunc_isPrefix _ _).isInfix.trans (trimLeftFrom_suffix _ _ _).isInfix

def hasPrefix (s p : List UInt8) : Bool := p.isPrefixOf s

def hasSuffix (s suffix : List UInt8) : Bool := suffix.isSuffixOf s

def trimPrefix (s p : List UInt8) : List UInt8 := if p.isPrefixOf s then s.drop p.length else s

@[simp] theorem hasPrefix_append (p s : List UInt8) : hasPrefix (p ++ s) p = true := by
  simp [hasPrefix]

@[simp] theorem trimPrefix_append (p s : List UInt8) : trimPrefix (p ++ s) p = s := by
  simp [trimPrefix]

def trimSuffix (s suffix : List UInt8) : List UInt8 :=
  if suffix.isSuffixOf s then s.take (s.length - suffix.length) else s

@[simp] theorem hasSuffix_append (s suffix : List UInt8) : hasSuffix (s ++ suffix) suffix = true := by
  simp [hasSuffix, List.isSuffixOf_iff_suffix]

@[simp] theorem trimSuffix_append (s suffix : List UInt8) : trimSuffix (s ++ suffix) suffix = s := by
  simp [trimSuffix, List.isSuffixOf_iff_suffix]

theorem trimSuffix_isPrefix (s suffix : List UInt8) : trimSuffix s suffix <+: s := by
  unfold trimSuffix
  split
  · exact List.take_prefix _ _
  · exact List.prefix_refl s

/-- The bytes of a Go string literal. -/
def text (s : String) : List UInt8 := s.toUTF8.toList

/-- `strings.TrimLeft` with a cutset of one ASCII byte, which Go runs as `trimLeftByte`. -/
def trimLeftByte (s : List UInt8) (c : UInt8) : List UInt8 := s.dropWhile (· == c)

theorem trimLeftByte_of_head {s : List UInt8} {c : UInt8} (other : s.head? ≠ some c) : trimLeftByte s c = s := by
  cases s with
  | nil => rfl
  | cons b rest =>
    have differ : b ≠ c := fun same => other (by rw [same]; rfl)
    simp [trimLeftByte, differ]

/-- `strings.LastIndexByte`, which `strings.LastIndex` runs for a separator of one byte. -/
def lastIndexByte : List UInt8 → UInt8 → Option Nat
  | [], _ => none
  | b :: rest, c =>
    match lastIndexByte rest c with
    | some i => some (i + 1)
    | none => if b = c then some 0 else none

theorem lastIndexByte_of_not_mem {s : List UInt8} {c : UInt8} (absent : c ∉ s) : lastIndexByte s c = none := by
  induction s with
  | nil => rfl
  | cons b rest ih =>
    have differ : b ≠ c := fun same => absent (same ▸ List.mem_cons_self)
    rw [lastIndexByte, ih fun mem => absent (List.mem_cons_of_mem b mem), if_neg differ]

theorem lastIndexByte_append (a b : List UInt8) {c : UInt8} (absent : c ∉ b) :
    lastIndexByte (a ++ c :: b) c = some a.length := by
  induction a with
  | nil => rw [List.nil_append, lastIndexByte, lastIndexByte_of_not_mem absent, if_pos rfl, List.length_nil]
  | cons x a ih => rw [List.cons_append, lastIndexByte, ih, List.length_cons]

/-- `strings.Split` with a separator of one byte. -/
def split (s : List UInt8) (sep : UInt8) : List (List UInt8) := s.splitOn sep

/-- `strings.Contains`. -/
def contains : List UInt8 → List UInt8 → Bool
  | [], sub => sub.isEmpty
  | c :: rest, sub => sub.isPrefixOf (c :: rest) || contains rest sub

theorem contains_singleton (s : List UInt8) (b : UInt8) : contains s [b] = true ↔ b ∈ s := by
  induction s with
  | nil => simp only [contains, List.isEmpty_cons, Bool.false_eq_true, List.not_mem_nil]
  | cons c rest ih =>
    have head : [b].isPrefixOf (c :: rest) = (b == c) := by simp [List.isPrefixOf]
    rw [contains, Bool.or_eq_true, ih, head, beq_iff_eq, List.mem_cons]

/-- `strings.FieldsFunc` with `field` the bytes of the field being read. -/
def fieldsFrom (f : Nat → Bool) : Nat → List UInt8 → List UInt8 → List (List UInt8)
  | 0, _, field => if field = [] then [] else [field]
  | _ + 1, [], field => if field = [] then [] else [field]
  | fuel + 1, s, field =>
    let (r, width) := decodeRune s
    if f r then (if field = [] then [] else [field]) ++ fieldsFrom f fuel (s.drop width) []
    else fieldsFrom f fuel (s.drop width) (field ++ s.take width)

/-- `strings.Fields`. -/
def fields (s : List UInt8) : List (List UInt8) := fieldsFrom isSpace s.length s []

/-- `strings.Join`. -/
def join (parts : List (List UInt8)) (sep : List UInt8) : List UInt8 := sep.intercalate parts

/-- `strings.Map`: each rune replaced by its image, an invalid byte read as `RuneError`. -/
def mapRunes (f : Nat → Nat) (s : List UInt8) : List UInt8 := (runes s).flatMap fun r => encodeRune (f r)

def asciiLower (b : UInt8) : UInt8 := if 0x41 ≤ b.toNat ∧ b.toNat ≤ 0x5A then b + 0x20 else b

/-- `strings.ToLower`, with `unicode.ToLower` as `lowerRune`. -/
def toLower (lowerRune : Nat → Nat) (s : List UInt8) : List UInt8 :=
  if s.all fun b => b.toNat < 0x80 then s.map asciiLower else mapRunes lowerRune s

theorem toLower_ascii (lowerRune : Nat → Nat) {s : List UInt8} (ascii : s.all fun b => b.toNat < 0x80) :
    toLower lowerRune s = s.map asciiLower := by
  simp only [toLower, ascii, if_true]

/-! ### Slash-separated paths -/

/-- `path.Base`: the last element of a path once its trailing slashes are
    dropped; `.` for an empty path and `/` for one of slashes only. -/
def pathBase (p : List UInt8) : List UInt8 :=
  if p = [] then [0x2E] else
    let trimmed := (p.reverse.dropWhile (· == 0x2F)).reverse
    let last := match lastIndexByte trimmed 0x2F with
      | some i => trimmed.drop (i + 1)
      | none => trimmed
    if last = [] then [0x2F] else last

theorem pathBase_append (dir : List UInt8) {name : List UInt8} (named : name ≠ []) (plain : 0x2F ∉ name) :
    pathBase (dir ++ 0x2F :: name) = name := by
  obtain ⟨c, rest, reversed⟩ := List.exists_cons_of_ne_nil (List.reverse_ne_nil_iff.mpr named)
  have notSlash : ¬ (c == 0x2F) = true := by
    have last : c ∈ name := List.mem_reverse.mp (by rw [reversed]; exact List.mem_cons_self)
    intro same
    exact plain (beq_iff_eq.mp same ▸ last)
  have backwards : (dir ++ 0x2F :: name).reverse = c :: (rest ++ 0x2F :: dir.reverse) := by
    simp [reversed]
  have untrimmed : ((dir ++ 0x2F :: name).reverse.dropWhile (· == 0x2F)).reverse = dir ++ 0x2F :: name := by
    rw [backwards, List.dropWhile_cons_of_neg (p := fun x => x == 0x2F) notSlash, ← backwards,
      List.reverse_reverse]
  have dropped : (dir ++ 0x2F :: name).drop (dir.length + 1) = name := by simp
  rw [pathBase, if_neg (by simp)]
  simp only [untrimmed, lastIndexByte_append dir name plain, dropped, if_neg named]

end GoStrings
