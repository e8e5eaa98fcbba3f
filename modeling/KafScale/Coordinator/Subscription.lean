import KafScale.Coordinator.Group
import KafScale.Lib.ByteReader

/-!
The consumer-protocol subscription that `encodeSubscription` writes and
`parseSubscriptionTopics` reads (`pkg/broker/coordinator.go`): version, topic
count, each name after its length, and an empty user-data field. The decoder of
`Group` is the value the parse returns once its allocation succeeds, with `extract`,
which never fails. `checkedParseSubscriptionTopics` is the whole function: Go's slice
expressions are bounds-checked, and `make([]string, 0, topicCount)` asks the heap for
16 bytes for each topic the count claims, before a single name is read.
-/
namespace CoordinatorSubscription
open WireWord GoRuntime ByteReader ProtocolRequest CoordinatorGroup

def encodeName (topic : Bytes) : Bytes := encode 2 (toUnsigned 16 topic.length) ++ topic

theorem encodeSubscription_eq (topics : List Bytes) :
    encodeSubscription topics =
      encode 2 0 ++ encode 4 (toUnsigned 32 topics.length) ++ topics.flatMap encodeName ++ encode 4 0 :=
  rfl

theorem subscriptionLoop_encode (rest : Bytes) :
    ∀ (topics : List Bytes) (pre : Bytes), (∀ t ∈ topics, t.length < 2 ^ 16) →
      subscriptionLoop (pre ++ topics.flatMap encodeName ++ rest) topics.length pre.length = topics
  | [], _, _ => rfl
  | t :: ts, pre, short => by
    have fits : t.length < 2 ^ 16 := short t List.mem_cons_self
    have shift : pre ++ (t :: ts).flatMap encodeName ++ rest =
        pre ++ encode 2 (toUnsigned 16 t.length) ++ t ++ ts.flatMap encodeName ++ rest := by
      simp [encodeName]
    have word : (pre ++ encode 2 (toUnsigned 16 t.length) ++ t ++ ts.flatMap encodeName ++ rest).extract
        pre.length (pre.length + 2) = encode 2 (toUnsigned 16 t.length) :=
      extract_append_middle pre (t ++ ts.flatMap encodeName ++ rest)
        (by simp only [List.append_assoc]) rfl (by simp)
    have name : (pre ++ encode 2 (toUnsigned 16 t.length) ++ t ++ ts.flatMap encodeName ++ rest).extract
        (pre.length + 2) (pre.length + 2 + t.length) = t :=
      extract_append_middle (pre ++ encode 2 (toUnsigned 16 t.length)) (ts.flatMap encodeName ++ rest)
        (by simp only [List.append_assoc]) (by simp) (by simp)
    have tail := subscriptionLoop_encode rest ts (pre ++ encode 2 (toUnsigned 16 t.length) ++ t)
      (fun t' member => short t' (List.mem_cons_of_mem t member))
    simp only [List.length_append, encode_length] at tail
    have long : pre.length + 2 + t.length ≤
        (pre ++ encode 2 (toUnsigned 16 t.length) ++ t ++ ts.flatMap encodeName ++ rest).length := by
      simp only [List.length_append, encode_length]
      omega
    rw [shift, List.length_cons, subscriptionLoop, if_pos (by omega), word,
      decode_encode_toUnsigned 2 fits, if_neg (by omega), name, tail]

theorem parseSubscriptionTopics_encode (name : Bytes) {topics : List Bytes}
    (short : ∀ t ∈ topics, t.length < 2 ^ 16) (few : topics.length < 2 ^ 32) :
    parseSubscriptionTopics [⟨name, encodeSubscription topics⟩] = topics := by
  have long : 10 ≤ (encodeSubscription topics).length := by
    simp only [encodeSubscription_eq, List.length_append, encode_length]
    omega
  have count : (encodeSubscription topics).extract 2 6 = encode 4 (toUnsigned 32 topics.length) :=
    extract_append_middle (encode 2 0) (topics.flatMap encodeName ++ encode 4 0)
      (by simp only [encodeSubscription_eq, List.append_assoc]) (by simp) (by simp)
  have names := subscriptionLoop_encode (encode 4 0) topics (encode 2 0 ++ encode 4 (toUnsigned 32 topics.length)) short
  simp only [List.length_append, encode_length] at names
  simp only [parseSubscriptionTopics]
  rw [if_neg (by omega), if_neg (by omega), count, decode_encode_toUnsigned 4 few,
    encodeSubscription_eq, names]

/-- `parseSubscriptionTopics`'s loop with each of Go's slice expressions
    checked: a slice outside the data panics. -/
def checkedSubscriptionLoop (data : Bytes) : Nat → Nat → Outcome Empty (List Bytes)
  | 0, _ => .ok []
  | count + 1, read =>
    if read + 2 ≤ data.length then do
      let word ← slice data read (read + 2)
      let nameLen := decode word
      if data.length < read + 2 + nameLen then pure []
      else do
        let topic ← slice data (read + 2) (read + 2 + nameLen)
        let topics ← checkedSubscriptionLoop data count (read + 2 + nameLen)
        pure (topic :: topics)
    else pure []

/-- The count word `parseSubscriptionTopics` reads, `0` when the metadata is too short for one. -/
def subscriptionCount : List JoinGroupProtocol → Nat
  | [] => 0
  | first :: _ => if first.metadata.length < 6 then 0 else decode (first.metadata.extract 2 6)

/-- `parseSubscriptionTopics` with its allocation and its slices checked. -/
def checkedParseSubscriptionTopics (heap : Heap) : List JoinGroupProtocol → Outcome Empty (List Bytes)
  | [] => .ok []
  | first :: _ =>
    let data := first.metadata
    if data.length < 2 then .ok []
    else do
      let unread ← slice data 2 data.length
      if unread.length < 4 then pure []
      else do
        let word ← slice data 2 6
        heap.make 16 (decode word)
        checkedSubscriptionLoop data (decode word) 6

theorem checkedSubscriptionLoop_eq (data : Bytes) :
    ∀ count read, checkedSubscriptionLoop data count read = .ok (subscriptionLoop data count read)
  | 0, _ => rfl
  | count + 1, read => by
    unfold checkedSubscriptionLoop subscriptionLoop
    by_cases room : read + 2 ≤ data.length
    · rw [if_pos room, if_pos room, slice_ok (by omega) room, ok_bind]
      dsimp only
      by_cases short : data.length < read + 2 + decode (data.extract read (read + 2))
      · rw [if_pos short, if_pos short]
        rfl
      · rw [if_neg short, if_neg short, slice_ok (by omega) (by omega), ok_bind,
          checkedSubscriptionLoop_eq data count, ok_bind]
        rfl
    · rw [if_neg room, if_neg room]
      rfl

theorem checkedParseSubscriptionTopics_eq {heap : Heap} (protocols : List JoinGroupProtocol)
    (granted : heap.Grants (16 * subscriptionCount protocols)) :
    checkedParseSubscriptionTopics heap protocols = .ok (parseSubscriptionTopics protocols) := by
  cases protocols with
  | nil => rfl
  | cons first others =>
    simp only [checkedParseSubscriptionTopics, parseSubscriptionTopics]
    by_cases tiny : first.metadata.length < 2
    · rw [if_pos tiny, if_pos tiny]
    · have unread : (first.metadata.extract 2 first.metadata.length).length = first.metadata.length - 2 := by
        simp
      rw [if_neg tiny, if_neg tiny, slice_ok (by omega) (le_refl _), ok_bind, unread]
      by_cases header : first.metadata.length - 2 < 4
      · rw [if_pos header, if_pos header]
        rfl
      · have counted : subscriptionCount (first :: others) = decode (first.metadata.extract 2 6) := by
          simp only [subscriptionCount]
          rw [if_neg (by omega)]
        rw [counted] at granted
        rw [if_neg header, if_neg header, slice_ok (by omega) (by omega), ok_bind,
          Heap.make_ok (Int.natCast_nonneg _) (by simpa using granted), ok_bind]
        exact checkedSubscriptionLoop_eq _ _ _

theorem subscriptionCount_encode (name : Bytes) {topics : List Bytes} (few : topics.length < 2 ^ 32) :
    subscriptionCount [⟨name, encodeSubscription topics⟩] = topics.length := by
  have long : 6 ≤ (encodeSubscription topics).length := by
    simp only [encodeSubscription_eq, List.length_append, encode_length]
    omega
  have count : (encodeSubscription topics).extract 2 6 = encode 4 (toUnsigned 32 topics.length) :=
    extract_append_middle (encode 2 0) (topics.flatMap encodeName ++ encode 4 0)
      (by simp only [encodeSubscription_eq, List.append_assoc]) (by simp) (by simp)
  simp only [subscriptionCount]
  rw [if_neg (by omega), count, decode_encode_toUnsigned 4 few]

/-- Metadata of six bytes: version 0 and a topic count of `2^32 - 1`, with no names. -/
def hugeCountMetadata : Bytes := [0, 0, 0xFF, 0xFF, 0xFF, 0xFF]

/-- A subscription written by `encodeSubscription` reads back when the broker can allocate its
    topics' strings, but six bytes that claim `2^32 - 1` topics make `parseSubscriptionTopics`
    ask for 64 GiB before it reads a name: the broker dies unless it can get them, and returns no
    topics if it can. -/
theorem subscription_parse_needs_memory :
    (∀ (heap : Heap) (name : Bytes) (topics : List Bytes), (∀ t ∈ topics, t.length < 65536) →
        topics.length < 2 ^ 31 → heap.Grants (16 * topics.length) →
        checkedParseSubscriptionTopics heap [⟨name, encodeSubscription topics⟩] = .ok topics) ∧
    ∀ (heap : Heap) (name : Bytes),
      (checkedParseSubscriptionTopics heap [⟨name, hugeCountMetadata⟩] = .panic ↔
        heap.free < 16 * (2 ^ 32 - 1)) := by
  refine ⟨fun heap name topics short few granted => ?_, fun heap name => ?_⟩
  · rw [checkedParseSubscriptionTopics_eq _ (by rwa [subscriptionCount_encode name (by omega)])]
    exact congrArg Outcome.ok (parseSubscriptionTopics_encode name short (by omega))
  · have words : decode (hugeCountMetadata.extract 2 6) = 2 ^ 32 - 1 := by decide
    have granted : heap.Grants (16 * (2 ^ 32 - 1)) ↔ 16 * (2 ^ 32 - 1) ≤ heap.free := by
      simp [Heap.Grants, maxAlloc]
    simp only [checkedParseSubscriptionTopics]
    rw [if_neg (by decide), slice_ok (by decide) (le_refl _), ok_bind, if_neg (by decide),
      slice_ok (by decide) (by decide), ok_bind, words]
    by_cases enough : heap.Grants (16 * (2 ^ 32 - 1))
    · rw [Heap.make_ok (by decide) (by simpa using enough), ok_bind]
      have none : checkedSubscriptionLoop hugeCountMetadata (2 ^ 32 - 1) 6 = .ok [] := by
        rw [checkedSubscriptionLoop_eq]
        rfl
      rw [none]
      simp only [reduceCtorEq, false_iff, not_lt]
      exact granted.mp enough
    · rw [Heap.make_eq_panic (by simpa using enough), panic_bind]
      simp only [true_iff]
      exact Nat.lt_of_not_le (mt granted.mpr enough)

end CoordinatorSubscription
