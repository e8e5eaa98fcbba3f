import KafScale.Sql.Parser
import KafScale.Sql.Server

/-!
Where the KAFSQL parser cuts the original text, and when that panics. Every
offset it cuts at comes from `keywordIndex` or `clauseEnd` on a lowered text
and lies inside that text, the keyword's own length included
(`keywordIndex_add_length_le`, `clauseEnd_le`), and the `FROM` of a `SELECT`
starts after the whole of its `SELECT` (`select_before_from`, from the runes
the two matches read). So the parser cannot panic while lowering lengthens no
piece of the query (`parse_noPanic`), and no ASCII query makes it panic. Go's
`strings.ToLower` writes an invalid byte as the three bytes of U+FFFD, and a
query with four such bytes before its `FROM` cuts past its own end.
-/
namespace SqlParser
open WireWord GoRuntime GoStrings GoRegexp ByteReader Relation

theorem length_extract_end (s : Bytes) (start : Nat) : (s.extract start s.length).length = s.length - start := by
  simp [List.extract_eq_take_drop]

theorem extract_isInfix (s : Bytes) (lo hi : Nat) : s.extract lo hi <:+: s := by
  rw [List.extract_eq_take_drop]
  exact (List.take_prefix _ _).isInfix.trans (List.drop_suffix _ _).isInfix

/-! ## Offsets -/

theorem keywordIndex_spans {lower keyword : Bytes} {i : Nat} (found : keywordIndex lower keyword = some i) :
    ∃ c₀ c₁, ReflTransGen Step (.start lower) c₀ ∧ Spans (literalFold keyword) c₀ c₁ ∧ c₀.pos = i ∧
      c₁.pos ≤ lower.length := by
  unfold keywordIndex at found
  obtain ⟨⟨a, b⟩, located, rfl⟩ := Option.map_eq_some_iff.mp found
  obtain ⟨c₀, c₁, run, spans, start, stop⟩ := findIndex_sound located
  exact ⟨c₀, c₁, run, spans_wholeWordFold spans, start, stop ▸ (findIndex_le_length located).2⟩

theorem keywordIndex_add_length_le {lower keyword : Bytes} {i : Nat} (found : keywordIndex lower keyword = some i) :
    i + keyword.length ≤ lower.length := by
  obtain ⟨c₀, c₁, -, spans, rfl, inside⟩ := keywordIndex_spans found
  have := spans_literalFold_length spans
  omega

theorem clauseEnd_le (lower : Bytes) (stopKeywords : List Bytes) : clauseEnd lower stopKeywords ≤ lower.length := by
  unfold clauseEnd
  generalize lower.length = stop
  induction stopKeywords generalizing stop with
  | nil => exact Nat.le_refl stop
  | cons keyword rest ih =>
    rw [List.foldl_cons]
    refine (ih _).trans ?_
    split
    · split <;> omega
    · exact Nat.le_refl stop

theorem select_rune_not_f {b : UInt8} (mem : b ∈ text "select") {r : Nat}
    (inSelect : foldOrbit b.toNat r = true) (isF : foldOrbit (0x66 : UInt8).toNat r = true) : False := by
  have f : r = 0x66 ∨ r = 0x46 := by
    simp [foldOrbit] at isF
    omega
  rw [keyword_texts_bytes.2.2.2.1] at mem
  simp only [List.mem_cons, List.not_mem_nil, or_false] at mem
  rcases f with rfl | rfl <;> rcases mem with rfl | rfl | rfl | rfl | rfl | rfl <;> simp [foldOrbit] at inSelect

theorem select_before_from {lower : Bytes} {s f : Nat} (selectAt : keywordIndex lower (text "select") = some s)
    (fromAt : keywordIndex lower (text "from") = some f) (after : s < f) : s + (text "select").length ≤ f := by
  obtain ⟨c₀, c₁, run, spans, rfl, -⟩ := keywordIndex_spans selectAt
  obtain ⟨d₀, d₁, run', spans', rfl, -⟩ := keywordIndex_spans fromAt
  have long := spans_literalFold_length spans
  rcases ReflTransGen.total_of_right_unique step_rightUnique run run' with forward | backward
  · by_contra early
    obtain ⟨b, mem, r, d', next, inSelect⟩ := spans_literalFold_inside spans forward (by omega)
    rw [keyword_texts_bytes.2.2.2.2] at spans'
    obtain ⟨r', mid, next', isF, -⟩ := spans_literalFold_cons spans'
    rw [next, Option.some.injEq, Prod.mk.injEq] at next'
    obtain ⟨rfl, -⟩ := next'
    exact select_rune_not_f mem inSelect isF
  · have := (advance_pos backward).1
    omega

/-! ## No panic while lowering does not lengthen -/

section NoPanic
variable (lib : GoLibrary)

theorem clauseText_noPanic {raw lower : Bytes} {start : Nat} (stopKeywords : List Bytes)
    (short : lower.length ≤ raw.length) (inside : start ≤ lower.length) :
    (clauseText raw lower start stopKeywords).NoPanic := by
  have cut := clauseEnd_le (lower.extract start lower.length) stopKeywords
  rw [length_extract_end] at cut
  unfold clauseText
  simp only [slice_ok (by omega : start ≤ raw.length) (Nat.le_refl _), slice_ok inside (Nat.le_refl _), ok_bind,
    slice_ok (Nat.zero_le _) (by rw [length_extract_end]; omega : clauseEnd (lower.extract start lower.length)
      stopKeywords ≤ (raw.extract start raw.length).length)]
  trivial

theorem parseGroupBy_noPanic {raw lower : Bytes} (short : lower.length ≤ raw.length) :
    (parseGroupBy lib raw lower).NoPanic := by
  unfold parseGroupBy
  split
  · trivial
  · rename_i groupIdx found
    exact (clauseText_noPanic _ short (keywordIndex_add_length_le found)).bind fun _ => trivial

theorem parseOrderBy_noPanic {raw lower : Bytes} (short : lower.length ≤ raw.length) :
    (parseOrderBy lib raw lower).NoPanic := by
  unfold parseOrderBy
  split
  · trivial
  · rename_i orderIdx found
    exact (clauseText_noPanic _ short (keywordIndex_add_length_le found)).bind fun _ => trivial

theorem parseOrderDesc_noPanic {raw lower : Bytes} (short : lower.length ≤ raw.length) :
    (parseOrderDesc lib raw lower).NoPanic := by
  unfold parseOrderDesc
  split
  · trivial
  · rename_i orderIdx found
    have inside := keywordIndex_add_length_le found
    simp only [slice_ok (by omega : orderIdx + (text "order by").length ≤ raw.length) (Nat.le_refl _), ok_bind,
      slice_ok (Nat.zero_le _) (clauseEnd_le _ _)]
    trivial

theorem parseJoinCondition_noPanic {raw lower : Bytes} (topic topicAlias joinTopic joinAlias : Bytes)
    (short : lower.length ≤ raw.length) :
    (parseJoinCondition lib raw lower topic topicAlias joinTopic joinAlias).NoPanic := by
  unfold parseJoinCondition
  split
  · trivial
  · rename_i joinIdx joined
    have afterJoin := keywordIndex_add_length_le joined
    simp only [slice_ok (by omega : joinIdx ≤ lower.length) (Nat.le_refl _), ok_bind]
    split
    · trivial
    · rename_i onIdx on
      have onInside := keywordIndex_add_length_le on
      rw [length_extract_end] at onInside
      refine (clauseText_noPanic _ short (by omega)).bind fun expr => ?_
      split
      · exact (Outcome.ofExcept_noPanic _).bind fun _ => (Outcome.ofExcept_noPanic _).bind fun _ => trivial
      · trivial

theorem parseSelectColumns_noPanic {raw lower : Bytes} (short : lower.length ≤ raw.length) :
    (parseSelectColumns lib raw lower).NoPanic := by
  unfold parseSelectColumns
  split
  · rename_i s f selectAt fromAt
    split
    · trivial
    · rename_i after
      have ordered := select_before_from selectAt fromAt (by omega)
      have inside := keywordIndex_add_length_le fromAt
      simp only [slice_ok ordered (by omega : f ≤ raw.length), ok_bind]
      trivial
  · trivial

theorem parseSelect_noPanic {raw lower : Bytes} (fields : List Bytes) (short : lower.length ≤ raw.length) :
    (parseSelect lib raw lower fields).NoPanic := by
  have tail : ∀ (k : Filters → Option Int × Option Int → Outcome Bytes Query),
      (∀ filters ts, (k filters ts).NoPanic) →
      ((Outcome.ofExcept (parseFilters fields)) >>= fun filters =>
        Outcome.ofExcept (parseTSFilters lib raw) >>= fun ts => k filters ts).NoPanic :=
    fun k rest => (Outcome.ofExcept_noPanic _).bind fun filters => (Outcome.ofExcept_noPanic _).bind (rest filters)
  unfold parseSelect
  refine (parseSelectColumns_noPanic lib short).bind fun selectCols => ?_
  refine (Outcome.ofExcept_noPanic _).bind fun ⟨topic, topicAlias⟩ => ?_
  rcases parseJoin fields with ⟨joinType, joinTopic, joinAlias⟩
  dsimp only
  split
  · trivial
  · split
    · refine (parseJoinCondition_noPanic lib _ _ _ _ short).bind fun joinOn => tail _ fun filters ts => ?_
      exact (parseGroupBy_noPanic lib short).bind fun _ => (parseOrderBy_noPanic lib short).bind fun _ =>
        (parseOrderDesc_noPanic lib short).bind fun _ => trivial
    · refine tail _ fun filters ts => ?_
      exact (parseGroupBy_noPanic lib short).bind fun _ => (parseOrderBy_noPanic lib short).bind fun _ =>
        (parseOrderDesc_noPanic lib short).bind fun _ => trivial

/-- Lowering lengthens no piece of `query`: Go's `strings.ToLower` keeps the
    length of an ASCII text, and the parser cuts only pieces of the query. -/
def LowerKeepsLength (lowerRune : Nat → Nat) (query : Bytes) : Prop :=
  ∀ s, s <:+: query → (toLower lowerRune s).length ≤ s.length

theorem LowerKeepsLength.of_isInfix {lowerRune : Nat → Nat} {query s : Bytes} (keeps : LowerKeepsLength lowerRune query)
    (piece : s <:+: query) : LowerKeepsLength lowerRune s :=
  fun t inS => keeps t (inS.trans piece)

theorem lowerKeepsLength_of_ascii (lowerRune : Nat → Nat) {query : Bytes} (ascii : query.all fun b => b.toNat < 0x80) :
    LowerKeepsLength lowerRune query := by
  intro s piece
  have asciiPiece : s.all fun b => b.toNat < 0x80 := by
    simp only [List.all_eq_true] at ascii ⊢
    exact fun b mem => ascii b (piece.subset mem)
  rw [toLower_ascii lowerRune asciiPiece, List.length_map]

theorem parseExplain_noPanic {p : Bytes → Outcome Bytes Query} {raw : Bytes} (keeps : LowerKeepsLength lib.lowerRune raw)
    (inner : ∀ inner, inner <:+: raw → inner.length < raw.length → (p inner).NoPanic) :
    (parseExplain lib p raw).NoPanic := by
  unfold parseExplain
  dsimp only
  split
  · trivial
  · rename_i isExplain
    have seven : (text "explain").length = 7 := keyword_texts_bytes.1
    have lowered : (text "explain").length ≤ (toLower lib.lowerRune (trimSpace raw)).length :=
      (by simpa [hasPrefix] using isExplain : text "explain" <+: _).length_le
    have short := keeps _ (trimSpace_isInfix raw)
    rw [slice_ok (by omega) (Nat.le_refl _), ok_bind]
    split
    · trivial
    · have piece := (trimSpace_isInfix _).trans
        ((extract_isInfix (trimSpace raw) (text "explain").length (trimSpace raw).length).trans (trimSpace_isInfix raw))
      have cut := length_extract_end (trimSpace raw) (text "explain").length
      have shorter := (trimSpace_isInfix ((trimSpace raw).extract (text "explain").length (trimSpace raw).length)).length_le
      have whole := (trimSpace_isInfix raw).length_le
      have explained := inner _ piece (by omega)
      split
      · trivial
      · rename_i parsedPanic
        rw [parsedPanic] at explained
        exact explained
      · split <;> trivial

theorem parseStatement_noPanic {p : Bytes → Outcome Bytes Query} {query : Bytes}
    (keeps : LowerKeepsLength lib.lowerRune query)
    (inner : ∀ inner, inner <:+: query → inner.length < query.length → (p inner).NoPanic) :
    (parseStatement lib p query).NoPanic := by
  have trimmed : trimSuffix (trimSpace query) (text ";") <:+: query :=
    (trimSuffix_isPrefix _ _).isInfix.trans (trimSpace_isInfix query)
  unfold parseStatement
  dsimp only
  split
  · trivial
  · split
    · trivial
    · split
      · exact Outcome.ofExcept_noPanic _
      split
      · exact Outcome.ofExcept_noPanic _
      split
      · exact parseSelect_noPanic lib _ (keeps _ trimmed)
      split
      · refine parseExplain_noPanic lib (keeps.of_isInfix trimmed) fun piece inTrimmed shorter => ?_
        exact inner piece (inTrimmed.trans trimmed) (Nat.lt_of_lt_of_le shorter trimmed.length_le)
      · trivial

theorem parse_noPanic (query : Bytes) (keeps : LowerKeepsLength lib.lowerRune query) : (parse lib query).NoPanic := by
  induction length : query.length using Nat.strong_induction_on generalizing query with
  | _ n ih =>
    rw [parse_eq]
    refine parseStatement_noPanic lib keeps fun piece inQuery shorter => ?_
    exact ih piece.length (length ▸ shorter) piece (keeps.of_isInfix inQuery) rfl

theorem parse_noPanic_of_ascii {query : Bytes} (ascii : query.all fun b => b.toNat < 0x80) :
    (parse lib query).NoPanic :=
  parse_noPanic lib query (lowerKeepsLength_of_ascii lib.lowerRune ascii)

end NoPanic

/-! ## A query that makes `Parse` panic -/

/-- A select list of four invalid bytes: `select \xff\xff\xff\xff from t`. -/
def invalidUtf8Query : Bytes := text "select " ++ [0xFF, 0xFF, 0xFF, 0xFF] ++ text " from t"

/-- What `strings.ToLower` makes of it: each invalid byte is written as the three bytes of U+FFFD. -/
def loweredInvalidUtf8Query : Bytes :=
  text "select " ++ [0xEF, 0xBF, 0xBD, 0xEF, 0xBF, 0xBD, 0xEF, 0xBF, 0xBD, 0xEF, 0xBF, 0xBD] ++ text " from t"

section Counterexample
variable (lib : GoLibrary)

theorem parseSelectColumns_panic {raw lower : Bytes} {s f : Nat}
    (selectAt : keywordIndex lower (text "select") = some s) (fromAt : keywordIndex lower (text "from") = some f)
    (ordered : s < f) (past : raw.length < f) : parseSelectColumns lib raw lower = .panic := by
  unfold parseSelectColumns
  simp only [selectAt, fromAt, if_neg (Nat.not_le.mpr ordered), slice_past_end past, panic_bind]

theorem toLower_invalidUtf8Query (keepsAscii : ∀ r, r < 0x80 → ¬(0x41 ≤ r ∧ r ≤ 0x5A) → lib.lowerRune r = r)
    (keepsError : lib.lowerRune Utf8.runeError = Utf8.runeError) :
    toLower lib.lowerRune invalidUtf8Query = loweredInvalidUtf8Query := by
  obtain ⟨notAscii, decoded⟩ : (invalidUtf8Query.all fun b => b.toNat < 0x80) = false ∧ Utf8.runes invalidUtf8Query =
      [0x73, 0x65, 0x6C, 0x65, 0x63, 0x74, 0x20, Utf8.runeError, Utf8.runeError, Utf8.runeError, Utf8.runeError,
        0x20, 0x66, 0x72, 0x6F, 0x6D, 0x20, 0x74] := by decide +kernel
  simp only [toLower, notAscii, Bool.false_eq_true, if_false, mapRunes, decoded]
  simp (disch := decide) only [List.flatMap_cons, List.flatMap_nil, keepsAscii, keepsError]
  decide +kernel

/-- Four invalid bytes before `FROM` lengthen the lowered query by eight bytes, so the `FROM`
    found in it lies past the end of the query: `Parse` cuts the select list past the end of
    its text and panics, and the server, which does not recover, crashes on the query. -/
theorem parse_panics_on_invalid_utf8 (keepsAscii : ∀ r, r < 0x80 → ¬(0x41 ≤ r ∧ r ≤ 0x5A) → lib.lowerRune r = r)
    (keepsError : lib.lowerRune Utf8.runeError = Utf8.runeError) :
    invalidUtf8Query.length = 18 ∧ (toLower lib.lowerRune invalidUtf8Query).length = 26 ∧
      keywordIndex (toLower lib.lowerRune invalidUtf8Query) (text "from") = some 20 ∧
      parse lib invalidUtf8Query = .panic ∧
      SqlServer.handleQuery lib.lowerRune (parseView lib) invalidUtf8Query = .parsePanicked := by
  have lowered := toLower_invalidUtf8Query lib keepsAscii keepsError
  obtain ⟨nonblank, trimmed, trimmedSpace, selectAt, fromAt, first, past, short, long, noCatalog, noSchema, noSet,
      noReset⟩ :
      trimSpace invalidUtf8Query ≠ [] ∧ trimSuffix (trimSpace invalidUtf8Query) (text ";") = invalidUtf8Query ∧
      trimSpace invalidUtf8Query = invalidUtf8Query ∧
      keywordIndex loweredInvalidUtf8Query (text "select") = some 0 ∧
      keywordIndex loweredInvalidUtf8Query (text "from") = some 20 ∧
      fields loweredInvalidUtf8Query =
        [text "select", [0xEF, 0xBF, 0xBD, 0xEF, 0xBF, 0xBD, 0xEF, 0xBF, 0xBD, 0xEF, 0xBF, 0xBD], text "from",
          text "t"] ∧
      invalidUtf8Query.length < 20 ∧ invalidUtf8Query.length = 18 ∧ loweredInvalidUtf8Query.length = 26 ∧
      contains loweredInvalidUtf8Query "pg_catalog".toUTF8.toList = false ∧
      contains loweredInvalidUtf8Query "information_schema".toUTF8.toList = false ∧
      hasPrefix loweredInvalidUtf8Query "set ".toUTF8.toList = false ∧
      hasPrefix loweredInvalidUtf8Query "reset ".toUTF8.toList = false := by
    decide +kernel
  have panics : parse lib invalidUtf8Query = .panic := by
    rw [parse_eq, parseStatement_of_select lib nonblank (by rw [trimmed, lowered, first])]
    simp only [parseSelect, trimmed, lowered, parseSelectColumns_panic lib selectAt fromAt (by decide) past, panic_bind]
  refine ⟨short, by rw [lowered]; exact long, by rw [lowered]; exact fromAt, panics, ?_⟩
  have catalog : SqlServer.handleCatalogQuery lib.lowerRune invalidUtf8Query = none := by
    simp only [SqlServer.handleCatalogQuery, nonblank, if_false]
    rw [show ";".toUTF8.toList = text ";" from rfl, trimmed, lowered, noCatalog, noSchema]
    rfl
  have notSet : SqlServer.handleSetCommand lib.lowerRune invalidUtf8Query = none := by
    simp only [SqlServer.handleSetCommand, nonblank, if_false]
    rw [trimmedSpace, lowered, noSet, noReset]
    rfl
  simp only [SqlServer.handleQuery, catalog, notSet, parseView, panics]
  rfl

theorem invalid_utf8_crashes_server_under_identity_lowering :
    SqlServer.handleQuery id (parseView ⟨id, fun _ _ => none, id⟩) invalidUtf8Query = .parsePanicked :=
  (parse_panics_on_invalid_utf8 ⟨id, fun _ _ => none, id⟩ (fun _ _ _ => rfl) rfl).2.2.2.2

end Counterexample

end SqlParser
