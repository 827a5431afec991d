import Mathlib.Algebra.Group.Int.Defs
import Mathlib.Algebra.Group.Nat.Defs
import Mathlib.Data.List.TakeWhile
import Mathlib.Tactic.Common
import Std.Data.ExtTreeMap.Lemmas

/-!
# Strings, message queues and messages

`std::string` is a list of bytes. A `MessageExt*` is modelled by the object it points to,
with its address, since the consumer tells messages apart by pointer.
-/

namespace RocketMQ

/-- `std::string` and `char` buffers: any bytes, `NUL` included. -/
abbrev StdString := List UInt8

instance : LawfulBEq StdString := inferInstance

/-- A string literal of the source, character by character. -/
def str (s : String) : StdString := s.toList.map fun c ↦ UInt8.ofNat c.toNat

/-- A string without `NUL` is shown in full by a `char *` to it. -/
theorem takeWhile_ne_nul {s : StdString} (h : 0 ∉ s) : s.takeWhile (· ≠ 0) = s := by
  refine List.takeWhile_eq_self_iff.mpr fun b hb ↦ decide_eq_true ?_
  rintro rfl
  exact h hb

/-- `src/message/MessageQueue.cpp:22–34`, `include/MessageQueue.h:53–56`. -/
structure MessageQueue where
  topic : StdString
  brokerName : StdString
  queueId : Int
deriving DecidableEq, Repr

/-- The order of `MessageQueue::compareTo`, `src/message/MessageQueue.cpp:107–127`, by topic,
then broker, then queue id, for names without `NUL` and ids whose difference is an `int`. -/
instance : Ord MessageQueue where
  compare := compareLex (compareOn MessageQueue.topic)
    (compareLex (compareOn MessageQueue.brokerName) (compareOn MessageQueue.queueId))

instance : Std.TransOrd MessageQueue :=
  inferInstanceAs (Std.TransCmp (compareLex (compareOn MessageQueue.topic)
    (compareLex (compareOn MessageQueue.brokerName) (compareOn MessageQueue.queueId))))

instance : Std.LawfulEqOrd MessageQueue where
  eq_of_compare {a b} h := by
    obtain ⟨topic, broker, id⟩ := a
    obtain ⟨topic', broker', id'⟩ := b
    change (compare topic topic').then ((compare broker broker').then (compare id id')) =
      .eq at h
    rw [Ordering.then_eq_eq, Ordering.then_eq_eq] at h
    obtain ⟨ht, hb, hi⟩ := h
    rw [Std.LawfulEqCmp.eq_of_compare ht, Std.LawfulEqCmp.eq_of_compare hb,
      Std.LawfulEqCmp.eq_of_compare hi]

/-- What the consumer reads of a pulled message, `include/MessageExt.h:91–105`. -/
structure MessageExt where
  address : Nat
  queueOffset : Int
deriving DecidableEq, Repr

/-- A message built by test data or a witness: its address is its offset. -/
def MessageExt.at (offset : Int) : MessageExt := ⟨offset.toNat, offset⟩

/-- The queue offsets of a list of messages, in its order. -/
def offsets (msgs : List MessageExt) : List Int := msgs.map MessageExt.queueOffset

@[simp] theorem offsets_nil : offsets [] = [] := rfl

@[simp] theorem offsets_cons (m : MessageExt) (msgs : List MessageExt) :
    offsets (m :: msgs) = m.queueOffset :: offsets msgs := rfl

@[simp] theorem length_offsets (msgs : List MessageExt) :
    (offsets msgs).length = msgs.length := List.length_map ..

end RocketMQ
