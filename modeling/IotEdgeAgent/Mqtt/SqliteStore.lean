import IotEdgeAgent.Library.Strings
import IotEdgeAgent.Library.Keys
import Mathlib.Data.Int.Notation
import Mathlib.Data.Nat.Notation

/-!
# The store of the messages in SQLite

A topic is written with its length and comes back in a buffer of that length, without a zero byte
behind it. Whoever reads it as a string reads on in the memory behind the buffer. What SQLite
answers to each statement is given, and it keeps texts and blobs as they are.
-/

namespace IotEdgeAgent.Mqtt.SqliteStore
open Strings (readString readString_append_iff)

structure TopicName where
  bytes : List UInt8
  nonempty : bytes ≠ []
  noNul : 0 ∉ bytes

structure MessageRow where
  id : ℤ
  topic : List UInt8
  qos : ℤ
  payload : List UInt8
  deriving DecidableEq, Repr

abbrev MessageTable := Table MessageRow.id

/-- `topicName` and `payload` are the memory from the pointers on. -/
structure PublishData where
  messageId : ℤ
  qos : ℤ
  topicName : List UInt8
  topicLen : ℕ
  payload : List UInt8
  payloadLen : ℕ
  deriving DecidableEq, Repr

structure Statement where
  prepared : Bool
  stepped : Bool
  finalized : Bool
  deriving DecidableEq, Repr

def Statement.succeeds (statement : Statement) : Bool :=
  statement.prepared && statement.stepped && statement.finalized

/-- The table, and whether 0 is returned. A row whose id is taken is refused. -/
def sqliteAddPubMessage (table : MessageTable) (messageId : ℤ) (topic : List UInt8)
    (topicLen : ℕ) (qos : ℤ) (payload : List UInt8) (length : ℕ) (statement : Statement) :
    MessageTable × Bool :=
  if !statement.prepared || !statement.stepped then (table, false)
  else
    match table.insert ⟨messageId, topic.take topicLen, qos, payload.take length⟩ with
    | none => (table, false)
    | some stored => (stored, statement.finalized)

def sqliteDeletePubMessage (table : MessageTable) (messageId : ℤ) (statement : Statement) :
    MessageTable × Bool :=
  if !statement.prepared || !statement.stepped then (table, false)
  else (table.delete messageId, statement.finalized)

/-- One round of the loop over the rows. `behind` is the memory behind the new topic buffer. -/
def fetchMessage (behind : List UInt8) (row : MessageRow) : PublishData where
  messageId := row.id
  qos := row.qos
  topicName := row.topic ++ behind
  topicLen := row.topic.length
  payload := row.payload
  payloadLen := row.payload.length

/-- The messages and `messageCount`, if 0 is returned. The first statement counts the rows. -/
def sqliteGetMessages (table : MessageTable) (count select : Statement)
    (behind : ℤ → List UInt8) : Option (List PublishData × ℤ) :=
  if !count.succeeds then none
  else if table.rows.length = 0 then some ([], 0)
  else if !select.succeeds then none
  else some (table.rows.map fun row => fetchMessage (behind row.id) row, table.rows.length)

inductive StoreCall
  | add (messageId : ℤ) (topic : List UInt8) (topicLen : ℕ) (qos : ℤ) (payload : List UInt8)
      (length : ℕ) (statement : Statement)
  | delete (messageId : ℤ) (statement : Statement)

def perform (table : MessageTable) : StoreCall → MessageTable
  | .add messageId topic topicLen qos payload length statement =>
    (sqliteAddPubMessage table messageId topic topicLen qos payload length statement).1
  | .delete messageId statement => (sqliteDeletePubMessage table messageId statement).1

def StoreCall.Spares (messageId : ℤ) : StoreCall → Prop
  | .add .. => True
  | .delete deleted _ => deleted ≠ messageId

structure RoundTrip (messageId : ℤ) (topic : TopicName) (qos : ℤ) (payload : List UInt8)
    (messages : List PublishData) (messageCount : ℤ) : Prop where
  count : messages.length = messageCount
  found : ∃ message ∈ messages, message.messageId = messageId
  same : ∀ message ∈ messages, message.messageId = messageId →
    readString message.topicName = some topic.bytes ∧ message.qos = qos ∧
      message.payload.take message.payloadLen = payload

section
variable {table stored : MessageTable} {row : MessageRow} {messageId : ℤ}

theorem mem_of_sqliteAddPubMessage {topic payload : List UInt8} {topicLen length : ℕ} {qos : ℤ}
    {statement : Statement} (h : sqliteAddPubMessage table messageId topic topicLen qos payload
      length statement = (stored, true)) :
    ⟨messageId, topic.take topicLen, qos, payload.take length⟩ ∈ stored.rows := by
  unfold sqliteAddPubMessage at h
  split_ifs at h
  · cases h
  · split at h
    · cases h
    next inserted hinsert =>
      obtain rfl : inserted = stored := congrArg Prod.fst h
      rw [Table.rows_of_insert hinsert]
      exact List.mem_append_right _ List.mem_cons_self

theorem mem_perform (hrow : row ∈ table.rows) {call : StoreCall} (hspares : call.Spares row.id) :
    row ∈ (perform table call).rows := by
  cases call with
  | add messageId topic topicLen qos payload length statement =>
    rw [perform, sqliteAddPubMessage]
    split_ifs
    · exact hrow
    · split
      · exact hrow
      next inserted hinsert =>
        rw [Table.rows_of_insert hinsert]
        exact List.mem_append_left _ hrow
  | delete deleted statement =>
    rw [perform, sqliteDeletePubMessage]
    split_ifs
    · exact hrow
    · exact Table.mem_delete.mpr ⟨hrow, Ne.symm hspares⟩

theorem mem_foldl_perform (hrow : row ∈ table.rows) {calls : List StoreCall}
    (hspares : ∀ call ∈ calls, call.Spares row.id) : row ∈ (calls.foldl perform table).rows := by
  induction calls generalizing table with
  | nil => exact hrow
  | cons call calls ih =>
    obtain ⟨hcall, hrest⟩ := List.forall_mem_cons.mp hspares
    exact ih (mem_perform hrow hcall) hrest

theorem sqliteGetMessages_some {count select : Statement} {behind : ℤ → List UInt8}
    {messages : List PublishData} {messageCount : ℤ}
    (h : sqliteGetMessages table count select behind = some (messages, messageCount)) :
    messages = table.rows.map (fun row => fetchMessage (behind row.id) row) ∧
      messageCount = table.rows.length := by
  unfold sqliteGetMessages at h
  split_ifs at h with hcount hempty hselect
  · cases h
    rw [List.length_eq_zero_iff.mp hempty]
    exact ⟨rfl, rfl⟩
  · cases h
    exact ⟨rfl, rfl⟩

theorem roundTrip_of_row_iff {topic : TopicName} {qos : ℤ} {payload : List UInt8}
    (hrow : ⟨messageId, topic.bytes, qos, payload⟩ ∈ table.rows) {count select : Statement}
    {behind : ℤ → List UInt8} {messages : List PublishData} {messageCount : ℤ}
    (h : sqliteGetMessages table count select behind = some (messages, messageCount)) :
    RoundTrip messageId topic qos payload messages messageCount ↔
      (behind messageId).head? = some 0 := by
  obtain ⟨rfl, rfl⟩ := sqliteGetMessages_some h
  rw [← readString_append_iff topic.noNul]
  have hmem := List.mem_map_of_mem (f := fun row => fetchMessage (behind row.id) row) hrow
  constructor
  · intro htrip
    exact (htrip.same _ hmem rfl).1
  · intro hstring
    refine ⟨?_, ⟨_, hmem, rfl⟩, fun message hmessage hid => ?_⟩
    · rw [List.length_map]
    · obtain ⟨other, hother, rfl⟩ := List.mem_map.mp hmessage
      obtain rfl := Table.eq_of_key_eq hother hrow hid
      exact ⟨hstring, rfl, List.take_length⟩

end

/-- A message that was added, and not deleted since, comes back as it was written exactly when the
memory behind the new buffer starts with a zero byte. -/
theorem roundTrip_iff_terminated {table stored : MessageTable} {messageId : ℤ} {topic : TopicName}
    {behindTopic : List UInt8} {qos : ℤ} {payload : List UInt8} {insert : Statement}
    (hadd : sqliteAddPubMessage table messageId (topic.bytes ++ 0 :: behindTopic)
      topic.bytes.length qos payload payload.length insert = (stored, true))
    {calls : List StoreCall} (hspares : ∀ call ∈ calls, call.Spares messageId)
    {count select : Statement} {behind : ℤ → List UInt8} {messages : List PublishData}
    {messageCount : ℤ} (hget : sqliteGetMessages (calls.foldl perform stored) count select behind =
      some (messages, messageCount)) :
    RoundTrip messageId topic qos payload messages messageCount ↔
      (behind messageId).head? = some 0 := by
  have hrow := mem_of_sqliteAddPubMessage hadd
  rw [List.take_left', List.take_length] at hrow
  · exact roundTrip_of_row_iff (mem_foldl_perform hrow hspares) hget
  · rfl

def working : Statement := ⟨true, true, true⟩

theorem letter_nonempty : ([0x61] : List UInt8) ≠ [] := by decide

theorem letter_noNul : 0 ∉ ([0x61] : List UInt8) := by decide

def letter : TopicName := ⟨[0x61], letter_nonempty, letter_noNul⟩

def stored : MessageTable := (sqliteAddPubMessage ∅ 1 [0x61, 0] 1 1 [0x31] 1 working).1

def fetched (behind : List UInt8) : List PublishData :=
  stored.rows.map fun row => fetchMessage behind row

theorem roundTrip_letter :
    RoundTrip 1 letter 1 [0x31] (fetched [0]) 1 ↔ ([0] : List UInt8).head? = some 0 := by
  have hadd : sqliteAddPubMessage ∅ 1 (letter.bytes ++ 0 :: []) letter.bytes.length 1 [0x31]
      ([0x31] : List UInt8).length working = (stored, true) := rfl
  have hget : sqliteGetMessages (([] : List StoreCall).foldl perform stored) working working
      (fun _ => [0]) = some (fetched [0], 1) := rfl
  exact roundTrip_iff_terminated hadd (by simp) hget

/-- The memory behind the buffer goes on with a "b". -/
theorem topic_reads_on :
    sqliteAddPubMessage ∅ 1 [0x61, 0] 1 1 [0x31] 1 working = (stored, true) ∧
      sqliteGetMessages stored working working (fun _ => [0x62, 0]) =
        some (fetched [0x62, 0], 1) ∧
      (fetched [0x62, 0]).map (readString ·.topicName) = [some [0x61, 0x62]] ∧
      ¬ RoundTrip 1 letter 1 [0x31] (fetched [0x62, 0]) 1 := by
  refine ⟨rfl, rfl, by decide, fun htrip => ?_⟩
  have hread : readString [0x61, 0x62, 0] = some [0x61] := (htrip.same _ List.mem_cons_self rfl).1
  exact absurd hread (by decide)

end IotEdgeAgent.Mqtt.SqliteStore
