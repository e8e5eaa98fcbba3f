import Mathlib.Logic.Relation
import Mathlib.Data.Option.Basic
import KafScale.Lib.Utf8

/-!
The part of Go's `regexp` package that a parser built on it needs: patterns of
single runes and greedy repetitions of one rune class, sequence, alternation,
capturing groups, `\b`, `^` and `$`, and the searches `FindStringIndex`,
`FindStringSubmatch` and `Split`.

Go reports the leftmost match and, among the matches that start there, the
one a backtracking matcher finds first: the left branch of an alternation
before the right, the longest repetition first. `matchHere` is that
backtracking matcher, in continuation-passing style, and `searchFrom` tries
the starts one rune after another. The input is read as runes, an invalid byte
as `RuneError` of width one, as Go's matchers read a string.

`Spans` says what a pattern means, with no order of search. The matcher and
the search are sound for it: what they report is a span of the pattern. That
is all the bounds on reported offsets need, and completeness is not claimed.
-/
namespace GoRegexp
open Utf8 Relation

inductive Regex where
  | empty
  | rune (cls : Nat → Bool)
  | star (cls : Nat → Bool)
  | seq (first second : Regex)
  | alt (left right : Regex)
  | capture (group : Nat) (body : Regex)
  | wordBoundary
  | beginText
  | endText

/-- A position in the input: how many bytes lie before it, the byte right
    before it, and the bytes from it on. -/
structure Cursor where
  pos : Nat
  prev : Option UInt8
  rest : List UInt8

def Cursor.start (s : List UInt8) : Cursor := ⟨0, none, s⟩

/-- The cursor at byte `pos` of `s`, where a search resumes. -/
def Cursor.at (s : List UInt8) (pos : Nat) : Cursor :=
  ⟨pos, if pos = 0 then none else s[pos - 1]?, s.drop pos⟩

/-- The spans of the groups closed so far, the latest first. -/
abbrev Captures := List (Nat × Nat × Nat)

def Cursor.next (c : Cursor) : Option (Nat × Cursor) :=
  match c.rest with
  | [] => none
  | b :: bs =>
    let (r, width) := decodeRune (b :: bs)
    some (r, ⟨c.pos + width, ((b :: bs).take width).getLast?, (b :: bs).drop width⟩)

/-- `\b` compares ASCII word characters `[0-9A-Za-z_]` on its two sides, and a
    rune is one exactly when its first byte, or its last, is one: the byte
    before the cursor and the byte at it decide. -/
def wordByte : Option UInt8 → Bool
  | some b => (0x30 ≤ b.toNat && b.toNat ≤ 0x39) || (0x41 ≤ b.toNat && b.toNat ≤ 0x5A) ||
      (0x61 ≤ b.toNat && b.toNat ≤ 0x7A) || b.toNat == 0x5F
  | none => false

section Matching
variable {α : Type}

/-- A greedy repetition of `cls` followed by `k`: the longest run first, then
    one rune shorter, down to the empty run. -/
def starLoop (cls : Nat → Bool) (k : Cursor → Captures → Option α) :
    Nat → Cursor → Captures → Option α
  | 0, c, caps => k c caps
  | fuel + 1, c, caps =>
    match c.next with
    | some (r, c') => if cls r then starLoop cls k fuel c' caps <|> k c caps else k c caps
    | none => k c caps

/-- `re` matched from `c`, then `k` from where it ended. -/
def matchHere : Regex → Cursor → Captures → (Cursor → Captures → Option α) → Option α
  | .empty, c, caps, k => k c caps
  | .rune cls, c, caps, k =>
    match c.next with
    | some (r, c') => if cls r then k c' caps else none
    | none => none
  -- every rune takes a byte or more, so a run is no longer than the bytes left
  | .star cls, c, caps, k => starLoop cls k c.rest.length c caps
  | .seq first second, c, caps, k => matchHere first c caps fun c' caps' => matchHere second c' caps' k
  | .alt left right, c, caps, k => matchHere left c caps k <|> matchHere right c caps k
  | .capture g body, c, caps, k => matchHere body c caps fun c' caps' => k c' ((g, c.pos, c'.pos) :: caps')
  | .wordBoundary, c, caps, k => if wordByte c.prev != wordByte c.rest.head? then k c caps else none
  | .beginText, c, caps, k => if c.pos = 0 then k c caps else none
  | .endText, c, caps, k => if c.rest = [] then k c caps else none

end Matching

/-- The first start from `c` on where `re` matches, with the match's end and groups. -/
def searchFrom (re : Regex) : Nat → Cursor → Option (Nat × Nat × Captures)
  | 0, c => matchHere re c [] fun c' caps => some (c.pos, c'.pos, caps)
  | fuel + 1, c =>
    (matchHere re c [] fun c' caps => some (c.pos, c'.pos, caps)) <|>
      (match c.next with
        | some (_, c') => searchFrom re fuel c'
        | none => none)

/-- `FindStringIndex`. -/
def findIndex (re : Regex) (s : List UInt8) : Option (Nat × Nat) :=
  (searchFrom re s.length (.start s)).map fun (a, b, _) => (a, b)

/-- `FindStringSubmatch` of a pattern with `groups` groups: the match, then the
    text of each group, empty for a group that took no part; nothing at all
    when there is no match. -/
def findSubmatch (re : Regex) (groups : Nat) (s : List UInt8) : List (List UInt8) :=
  match searchFrom re s.length (.start s) with
  | none => []
  | some (a, b, caps) =>
    s.extract a b :: (List.range groups).map fun i =>
      match caps.find? fun span => span.1 == i + 1 with
      | some (_, x, y) => s.extract x y
      | none => []

/-- The loop of `FindAllStringIndex(s, -1)`: each search starts where the last
    match ended; after an empty match it moves one rune on, and an empty match
    right where the last match ended is not reported. -/
def findAllFrom (re : Regex) (s : List UInt8) : Nat → Nat → Option Nat → List (Nat × Nat)
  | 0, _, _ => []
  | fuel + 1, pos, prevEnd =>
    if s.length < pos then []
    else
      match searchFrom re (s.length - pos) (.at s pos) with
      | none => []
      | some (a, b, _) =>
        if b = pos then
          let next := if pos < s.length then pos + (decodeRune (s.drop pos)).2 else s.length + 1
          (if prevEnd = some a then [] else [(a, b)]) ++ findAllFrom re s fuel next (some b)
        else (a, b) :: findAllFrom re s fuel b (some b)

def findAll (re : Regex) (s : List UInt8) : List (Nat × Nat) := findAllFrom re s (s.length + 2) 0 none

/-- `Split(s, -1)`, for a pattern whose source text is not empty. -/
def split (re : Regex) (s : List UInt8) : List (List UInt8) :=
  if s = [] then [[]]
  else
    let (parts, beg, stop) := (findAll re s).foldl (fun (parts, beg, _) (a, b) =>
      (if b = 0 then parts else parts ++ [s.extract beg a], b, a)) ([], 0, 0)
    if stop = s.length then parts else parts ++ [s.drop beg]

/-! ## Classes and patterns -/

/-- `\s`, which is `[\t\n\f\r ]`. -/
def space (r : Nat) : Bool := r == 0x09 || r == 0x0A || r == 0x0C || r == 0x0D || r == 0x20

def digit (r : Nat) : Bool := 0x30 ≤ r && r ≤ 0x39

/-- `.`, which leaves out the newline. -/
def anyButNewline (r : Nat) : Bool := r != 0x0A

/-- Under `(?i)` an ASCII pattern rune stands for its orbit under Unicode
    simple case folding: the two cases of a letter, with `ſ` (U+017F) beside
    `s` and the Kelvin sign (U+212A) beside `k`. -/
def foldOrbit (c r : Nat) : Bool :=
  let lower := if 0x41 ≤ c ∧ c ≤ 0x5A then c + 0x20 else c
  if 0x61 ≤ lower ∧ lower ≤ 0x7A then
    r == lower || r == lower - 0x20 || (lower == 0x6B && r == 0x212A) || (lower == 0x73 && r == 0x17F)
  else r == c

/-- A class of ASCII runes under `(?i)`: the orbits of its members. -/
def foldClass (cls : Nat → Bool) (r : Nat) : Bool :=
  (List.range 0x80).any fun c => cls c && foldOrbit c r

def plus (cls : Nat → Bool) : Regex := .seq (.rune cls) (.star cls)

/-- `x?`, which takes the rune when it can. -/
def quest (cls : Nat → Bool) : Regex := .alt (.rune cls) .empty

def seqs : List Regex → Regex
  | [] => .empty
  | re :: rest => .seq re (seqs rest)

/-- `(a|b|…)` without its group: the branches in order. -/
def alts : Regex → List Regex → Regex
  | re, [] => re
  | re, next :: rest => .alt re (alts next rest)

/-- An ASCII literal under `(?i)`. -/
def literalFold (lit : List UInt8) : Regex := seqs (lit.map fun b => .rune (foldOrbit b.toNat))

/-- `\bLIT\b` under `(?i)`. -/
def wholeWordFold (lit : List UInt8) : Regex := seqs [.wordBoundary, literalFold lit, .wordBoundary]

/-! ## What a pattern means -/

/-- One rune of the input read. -/
def Step (c c' : Cursor) : Prop := ∃ r, c.next = some (r, c')

/-- One rune of `cls` read. -/
def StepIn (cls : Nat → Bool) (c c' : Cursor) : Prop := ∃ r, c.next = some (r, c') ∧ cls r = true

inductive Spans : Regex → Cursor → Cursor → Prop where
  | empty (c : Cursor) : Spans .empty c c
  | rune {cls : Nat → Bool} {c c' : Cursor} {r : Nat} (step : c.next = some (r, c')) (member : cls r = true) :
      Spans (.rune cls) c c'
  | star {cls : Nat → Bool} {c c' : Cursor} (run : ReflTransGen (StepIn cls) c c') : Spans (.star cls) c c'
  | seq {first second : Regex} {c mid c' : Cursor} :
      Spans first c mid → Spans second mid c' → Spans (.seq first second) c c'
  | left {l r : Regex} {c c' : Cursor} : Spans l c c' → Spans (.alt l r) c c'
  | right {l r : Regex} {c c' : Cursor} : Spans r c c' → Spans (.alt l r) c c'
  | capture {g : Nat} {body : Regex} {c c' : Cursor} : Spans body c c' → Spans (.capture g body) c c'
  | wordBoundary {c : Cursor} (boundary : wordByte c.prev ≠ wordByte c.rest.head?) : Spans .wordBoundary c c
  | beginText {c : Cursor} (first : c.pos = 0) : Spans .beginText c c
  | endText {c : Cursor} (last : c.rest = []) : Spans .endText c c

/-! ## Cursors -/

theorem Cursor.next_pos {c c' : Cursor} {r : Nat} (step : c.next = some (r, c')) :
    c.pos < c'.pos ∧ c'.pos + c'.rest.length = c.pos + c.rest.length := by
  obtain ⟨pos, prev, rest⟩ := c
  cases rest with
  | nil => simp [Cursor.next] at step
  | cons b bs =>
    simp only [Cursor.next, Option.some.injEq, Prod.mk.injEq] at step
    obtain ⟨-, rfl⟩ := step
    have width := decodeRune_width b bs
    simp only [List.length_drop, List.length_cons]
    omega

theorem step_rightUnique : Relator.RightUnique Step := by
  rintro c c₁ c₂ ⟨r₁, first⟩ ⟨r₂, second⟩
  rw [first, Option.some.injEq, Prod.mk.injEq] at second
  exact second.2

theorem advance_pos {c c' : Cursor} (run : ReflTransGen Step c c') :
    c.pos ≤ c'.pos ∧ c'.pos + c'.rest.length = c.pos + c.rest.length := by
  induction run with
  | refl => exact ⟨Nat.le_refl _, rfl⟩
  | tail _ last ih =>
    obtain ⟨r, step⟩ := last
    have := Cursor.next_pos step
    omega

theorem stepIn_le {cls : Nat → Bool} : StepIn cls ≤ Step := fun _ _ ⟨r, step, _⟩ => ⟨r, step⟩

theorem Spans.advance {re : Regex} {c c' : Cursor} (spans : Spans re c c') : ReflTransGen Step c c' := by
  induction spans with
  | empty | wordBoundary | beginText | endText => exact .refl
  | rune step => exact .single ⟨_, step⟩
  | star run => exact ReflTransGen.mono stepIn_le _ _ run
  | seq _ _ first second => exact first.trans second
  | left _ ih | right _ ih | capture _ ih => exact ih

/-! ## Soundness of the matcher and the search -/

section Soundness
variable {α : Type}

theorem starLoop_sound {cls : Nat → Bool} {k : Cursor → Captures → Option α} {x : α} :
    ∀ {fuel : Nat} {c : Cursor} {caps : Captures}, starLoop cls k fuel c caps = some x →
      ∃ c', ReflTransGen (StepIn cls) c c' ∧ k c' caps = some x
  | 0, c, _, found => ⟨c, .refl, found⟩
  | fuel + 1, c, caps, found => by
    unfold starLoop at found
    split at found
    · rename_i r c' step
      split at found
      · rename_i member
        rcases (Option.orElse_eq_some _ _ _).mp found with longer | ⟨-, here⟩
        · obtain ⟨d, run, tail⟩ := starLoop_sound longer
          exact ⟨d, .head ⟨r, step, member⟩ run, tail⟩
        · exact ⟨c, .refl, here⟩
      · exact ⟨c, .refl, found⟩
    · exact ⟨c, .refl, found⟩

theorem matchHere_sound :
    ∀ (re : Regex) {c : Cursor} {caps : Captures} {k : Cursor → Captures → Option α} {x : α},
      matchHere re c caps k = some x → ∃ c' caps', Spans re c c' ∧ k c' caps' = some x
  | .empty, c, caps, _, _, found => ⟨c, caps, .empty c, found⟩
  | .rune cls, c, caps, k, x, found => by
    unfold matchHere at found
    split at found
    · rename_i r c' step
      split at found
      · exact ⟨c', caps, .rune step ‹_›, found⟩
      · cases found
    · cases found
  | .star cls, c, caps, k, x, found => by
    obtain ⟨c', run, tail⟩ := starLoop_sound found
    exact ⟨c', caps, .star run, tail⟩
  | .seq first second, c, caps, k, x, found => by
    obtain ⟨mid, caps₁, spans₁, rest⟩ := matchHere_sound first found
    obtain ⟨c', caps', spans₂, tail⟩ := matchHere_sound second rest
    exact ⟨c', caps', .seq spans₁ spans₂, tail⟩
  | .alt left right, c, caps, k, x, found => by
    rcases (Option.orElse_eq_some _ _ _).mp found with first | ⟨-, second⟩
    · obtain ⟨c', caps', spans, tail⟩ := matchHere_sound left first
      exact ⟨c', caps', .left spans, tail⟩
    · obtain ⟨c', caps', spans, tail⟩ := matchHere_sound right second
      exact ⟨c', caps', .right spans, tail⟩
  | .capture g body, c, caps, k, x, found => by
    obtain ⟨c', caps', spans, tail⟩ := matchHere_sound body found
    exact ⟨c', _, .capture spans, tail⟩
  | .wordBoundary, c, caps, k, x, found => by
    unfold matchHere at found
    split at found
    · rename_i boundary
      exact ⟨c, caps, .wordBoundary (by simpa using boundary), found⟩
    · cases found
  | .beginText, c, caps, k, x, found => by
    unfold matchHere at found
    split at found
    · exact ⟨c, caps, .beginText ‹_›, found⟩
    · cases found
  | .endText, c, caps, k, x, found => by
    unfold matchHere at found
    split at found
    · exact ⟨c, caps, .endText ‹_›, found⟩
    · cases found

end Soundness

theorem searchFrom_sound {re : Regex} :
    ∀ {fuel : Nat} {c : Cursor} {a b : Nat} {caps : Captures}, searchFrom re fuel c = some (a, b, caps) →
      ∃ c₀ c₁, ReflTransGen Step c c₀ ∧ Spans re c₀ c₁ ∧ c₀.pos = a ∧ c₁.pos = b
  | 0, c, a, b, caps, found => by
    obtain ⟨c₁, _, spans, reported⟩ := matchHere_sound re found
    simp only [Option.some.injEq, Prod.mk.injEq] at reported
    exact ⟨c, c₁, .refl, spans, reported.1, reported.2.1⟩
  | fuel + 1, c, a, b, caps, found => by
    unfold searchFrom at found
    rcases (Option.orElse_eq_some _ _ _).mp found with here | ⟨-, later⟩
    · obtain ⟨c₁, _, spans, reported⟩ := matchHere_sound re here
      simp only [Option.some.injEq, Prod.mk.injEq] at reported
      exact ⟨c, c₁, .refl, spans, reported.1, reported.2.1⟩
    · split at later
      · rename_i r c' step
        obtain ⟨c₀, c₁, run, spans, start, stop⟩ := searchFrom_sound later
        exact ⟨c₀, c₁, .head ⟨r, step⟩ run, spans, start, stop⟩
      · cases later

theorem findIndex_sound {re : Regex} {s : List UInt8} {a b : Nat} (found : findIndex re s = some (a, b)) :
    ∃ c₀ c₁, ReflTransGen Step (.start s) c₀ ∧ Spans re c₀ c₁ ∧ c₀.pos = a ∧ c₁.pos = b := by
  unfold findIndex at found
  obtain ⟨⟨a', b', caps⟩, searched, reported⟩ := Option.map_eq_some_iff.mp found
  simp only [Prod.mk.injEq] at reported
  obtain ⟨rfl, rfl⟩ := reported
  exact searchFrom_sound searched

theorem findIndex_le_length {re : Regex} {s : List UInt8} {a b : Nat} (found : findIndex re s = some (a, b)) :
    a ≤ b ∧ b ≤ s.length := by
  obtain ⟨c₀, c₁, run, spans, rfl, rfl⟩ := findIndex_sound found
  have before := advance_pos run
  have within := advance_pos spans.advance
  simp only [Cursor.start, Nat.zero_add] at before
  omega

/-! ## Literals -/

theorem spans_seqs_cons {re : Regex} {rest : List Regex} {c c' : Cursor}
    (spans : Spans (seqs (re :: rest)) c c') : ∃ mid, Spans re c mid ∧ Spans (seqs rest) mid c' := by
  cases spans with
  | seq first second => exact ⟨_, first, second⟩

theorem literalFold_cons (b : UInt8) (lit : List UInt8) :
    literalFold (b :: lit) = .seq (.rune (foldOrbit b.toNat)) (literalFold lit) := rfl

theorem spans_literalFold_cons {b : UInt8} {lit : List UInt8} {c c' : Cursor}
    (spans : Spans (literalFold (b :: lit)) c c') :
    ∃ r mid, c.next = some (r, mid) ∧ foldOrbit b.toNat r = true ∧ Spans (literalFold lit) mid c' := by
  rw [literalFold_cons] at spans
  obtain ⟨mid, first, rest⟩ := spans_seqs_cons spans
  cases first with
  | rune step member => exact ⟨_, mid, step, member, rest⟩

theorem spans_literalFold_length : ∀ {lit : List UInt8} {c c' : Cursor},
    Spans (literalFold lit) c c' → c.pos + lit.length ≤ c'.pos
  | [], c, c', spans => by
    cases spans
    simp
  | b :: lit, c, c', spans => by
    obtain ⟨r, mid, step, _, rest⟩ := spans_literalFold_cons spans
    have first := (Cursor.next_pos step).1
    have later := spans_literalFold_length rest
    simp only [List.length_cons]
    omega

theorem spans_literalFold_inside : ∀ {lit : List UInt8} {c c' d : Cursor},
    Spans (literalFold lit) c c' → ReflTransGen Step c d → d.pos < c'.pos →
      ∃ b ∈ lit, ∃ r d', d.next = some (r, d') ∧ foldOrbit b.toNat r = true
  | [], c, c', d, spans, run, short => by
    cases spans
    have := (advance_pos run).1
    omega
  | b :: lit, c, c', d, spans, run, short => by
    obtain ⟨r, mid, step, member, rest⟩ := spans_literalFold_cons spans
    rcases ReflTransGen.cases_head run with rfl | ⟨e, toE, later⟩
    · exact ⟨b, List.mem_cons_self, r, mid, step, member⟩
    · have same : e = mid := step_rightUnique toE ⟨r, step⟩
      subst same
      obtain ⟨b', mem, r', d', next, orbit⟩ := spans_literalFold_inside rest later short
      exact ⟨b', List.mem_cons_of_mem b mem, r', d', next, orbit⟩

theorem spans_wholeWordFold {lit : List UInt8} {c c' : Cursor} (spans : Spans (wholeWordFold lit) c c') :
    Spans (literalFold lit) c c' := by
  obtain ⟨mid, before, rest⟩ := spans_seqs_cons spans
  obtain ⟨mid', word, rest'⟩ := spans_seqs_cons rest
  obtain ⟨mid'', after, last⟩ := spans_seqs_cons rest'
  cases before
  cases after
  cases last
  exact word

end GoRegexp
