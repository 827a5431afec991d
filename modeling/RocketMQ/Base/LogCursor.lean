import Mathlib.Data.List.Sort

/-!
# A cursor in a growing log

General library: what a consumer that reads a log in order is for. Entries are appended at
the end; the reader takes the next ones in hand, and either commits what it has in hand or
gives it back to the front. Whatever the order of these operations, the committed entries,
those in hand and the waiting ones are together the log.
-/

namespace RocketMQ.Base

universe u

/-- The entries of a log, split by how far the reader has come with them. -/
structure LogCursor (α : Type u) where
  committed : List α
  inHand : List α
  waiting : List α

namespace LogCursor

variable {α : Type u}

/-- The whole log, oldest entry first. -/
def log (c : LogCursor α) : List α := c.committed ++ c.inHand ++ c.waiting

/-- New entries go to the end of the log. -/
def append (c : LogCursor α) (xs : List α) : LogCursor α :=
  { c with waiting := c.waiting ++ xs }

/-- Take the next `n` waiting entries in hand. -/
def take (c : LogCursor α) (n : Nat) : LogCursor α :=
  { c with inHand := c.inHand ++ c.waiting.take n, waiting := c.waiting.drop n }

/-- Everything in hand is done. -/
def commit (c : LogCursor α) : LogCursor α :=
  { c with committed := c.committed ++ c.inHand, inHand := [] }

/-- Put everything in hand back before the waiting entries. -/
def giveBack (c : LogCursor α) : LogCursor α :=
  { c with inHand := [], waiting := c.inHand ++ c.waiting }

/-- Appending extends the log. -/
@[simp] theorem log_append (c : LogCursor α) (xs : List α) :
    (c.append xs).log = c.log ++ xs := by
  simp [log, append]

/-- Taking entries in hand keeps the log. -/
@[simp] theorem log_take (c : LogCursor α) (n : Nat) : (c.take n).log = c.log := by
  simp [log, take]

/-- Committing keeps the log. -/
@[simp] theorem log_commit (c : LogCursor α) : c.commit.log = c.log := by
  simp [log, commit]

/-- Giving back keeps the log. -/
@[simp] theorem log_giveBack (c : LogCursor α) : c.giveBack.log = c.log := by
  simp [log, giveBack]

/-- The committed entries are the beginning of the log. -/
theorem committed_isPrefix_log (c : LogCursor α) : c.committed <+: c.log :=
  ⟨c.inHand ++ c.waiting, by simp [log]⟩

/-- What is in hand comes next in the log after the committed entries. -/
theorem committed_inHand_isPrefix_log (c : LogCursor α) : c.committed ++ c.inHand <+: c.log :=
  ⟨c.waiting, rfl⟩

end LogCursor
end RocketMQ.Base
