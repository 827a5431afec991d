import RocketMQ.Base.Run
import RocketMQ.Consumer.MessageCount

/-!
# The counter of buffered messages

`putMessage` and `removeMessage` of `src/consumer/ProcessQueue.cpp` change `m_msgCount` by the
length of their list, and `m_msgTreeMap` by the offsets that are new, or there. Flow control and
`correctTagsOffset` take the counter for the number of buffered offsets.
-/

namespace RocketMQ

/-- A call of one of the two. -/
inductive BufferCall where
  | put (msgs : List MessageExt)
  | remove (msgs : List MessageExt)

namespace ProcessQueue

/-- The queue after a call. -/
def bufferStep (pq : ProcessQueue) : BufferCall → Option ProcessQueue
  | .put msgs => some (pq.putMessage msgs).1
  | .remove msgs => some (pq.removeMessage msgs).1

/-- The counter is the number of buffered offsets. -/
def CountExact (pq : ProcessQueue) : Prop := pq.msgCount = pq.waiting.length

/-- A put brings different offsets of which none is buffered; a removal finds nothing buffered, or
takes different offsets that all are. -/
def CountsRight (pq : ProcessQueue) : BufferCall → Prop
  | .put msgs => (offsets msgs).Nodup ∧ ∀ o ∈ offsets msgs, o ∉ pq.waiting
  | .remove msgs => pq.waiting = [] ∨ (offsets msgs).Nodup ∧ ∀ o ∈ offsets msgs, o ∈ pq.waiting

section Count

variable {pq pq' : ProcessQueue} {msgs : List MessageExt}

/-- A list without duplicates is as long as another one that has its elements exactly when that
one has the same elements, without duplicates. -/
private theorem length_eq_iff {os ps : List Int} (hps : ps.Nodup) (hsub : ps ⊆ os) :
    ps.length = os.length ↔ os.Nodup ∧ os ⊆ ps := by
  constructor
  · intro hlen
    have hperm : ps.Perm os := (hps.subperm hsub).perm_of_length_le hlen.ge
    exact ⟨hperm.nodup_iff.mp hps, hperm.symm.subset⟩
  · rintro ⟨hos, hback⟩
    exact ((List.perm_ext_iff_of_nodup hps hos).mpr fun o ↦ ⟨@hsub o, @hback o⟩).length_eq

/-- A put leaves the counter exact when all its offsets are new. -/
theorem countExact_putMessage_iff (h : pq.CountExact) :
    (pq.putMessage msgs).1.CountExact ↔ pq.CountsRight (.put msgs) := by
  have hmem (o : Int) : o ∈ (pq.putMessage msgs).1.waiting ↔ o ∈ offsets msgs ++ pq.waiting := by
    rw [mem_waiting_putMessage, List.mem_append]
  have hlen := length_eq_iff (pq.putMessage msgs).1.nodup_waiting fun o ho ↦ (hmem o).mp ho
  rw [List.length_append, length_offsets, List.nodup_append] at hlen
  have hlength : (pq.putMessage msgs).1.CountExact ↔
      (pq.putMessage msgs).1.waiting.length = msgs.length + pq.waiting.length := by
    rw [CountExact] at h ⊢
    rw [msgCount_putMessage, h]
    omega
  rw [hlength, hlen, CountsRight]
  constructor
  · rintro ⟨⟨hnodup, -, hdisjoint⟩, -⟩
    exact ⟨hnodup, fun o ho hw ↦ hdisjoint o ho o hw rfl⟩
  · rintro ⟨hnodup, hnew⟩
    exact ⟨⟨hnodup, pq.nodup_waiting, fun o ho o' ho' heq ↦ hnew o ho (heq ▸ ho')⟩,
      fun o ho ↦ (hmem o).mpr ho⟩

/-- A removal leaves the counter exact when all its offsets are there. -/
theorem countExact_removeMessage_iff (h : pq.CountExact) :
    (pq.removeMessage msgs).1.CountExact ↔ pq.CountsRight (.remove msgs) := by
  rw [CountsRight]
  by_cases hempty : pq.waiting = []
  · have hsame : (pq.removeMessage msgs).1 = pq := by
      rw [removeMessage_fst, hempty]
      rfl
    rw [hsame]
    exact iff_of_true h (Or.inl hempty)
  · have hmem (o : Int) : o ∈ (pq.removeMessage msgs).1.waiting ↔
        o ∉ offsets msgs ∧ o ∈ pq.waiting := pq.mem_waiting_removeMessage msgs
    have hsub : pq.waiting ⊆ offsets msgs ++ (pq.removeMessage msgs).1.waiting := fun o ho ↦ by
      rw [List.mem_append, hmem]
      exact (em (o ∈ offsets msgs)).imp_right fun hnot ↦ ⟨hnot, ho⟩
    have hlen := length_eq_iff pq.nodup_waiting hsub
    rw [List.length_append, length_offsets, List.nodup_append] at hlen
    have hlength : (pq.removeMessage msgs).1.CountExact ↔
        pq.waiting.length = msgs.length + (pq.removeMessage msgs).1.waiting.length := by
      have hcount : (pq.removeMessage msgs).1.msgCount = pq.msgCount - msgs.length := by
        rw [removeMessage_fst, if_neg (by simpa using hempty)]
      rw [CountExact] at h ⊢
      rw [hcount, h]
      omega
    rw [hlength, hlen, or_iff_right hempty]
    constructor
    · rintro ⟨⟨hnodup, -, -⟩, hback⟩
      exact ⟨hnodup, fun o ho ↦ hback (List.mem_append_left _ ho)⟩
    · rintro ⟨hnodup, hthere⟩
      refine ⟨⟨hnodup, (pq.removeMessage msgs).1.nodup_waiting, ?_⟩, fun o ho ↦ ?_⟩
      · rintro o ho _ ho' rfl
        exact ((hmem o).mp ho').1 ho
      · rcases List.mem_append.mp ho with hold | hleft
        · exact hthere o hold
        · exact ((hmem o).mp hleft).2

/-- One call: the counter stays exact when the call counts right, and only then. -/
theorem countExact_step_iff {call : BufferCall} (h : pq.CountExact)
    (hstep : pq.bufferStep call = some pq') : pq'.CountExact ↔ pq.CountsRight call := by
  cases call with
  | put msgs =>
    cases hstep
    exact countExact_putMessage_iff h
  | remove msgs =>
    cases hstep
    exact countExact_removeMessage_iff h

theorem countExact_new (now : Nat) : (new now).CountExact := rfl

/-- Every call comes to an end. -/
theorem exists_runFrom_bufferStep (pq : ProcessQueue) (calls : List BufferCall) :
    ∃ pq', Base.runFrom bufferStep pq calls = some pq' := by
  induction calls generalizing pq with
  | nil => exact ⟨pq, rfl⟩
  | cons call calls ih => cases call <;> exact ih _

/-- An exact counter is zero exactly when nothing is buffered, which is what `correctTagsOffset`
takes it for. -/
theorem CountExact.eq_zero_iff (h : pq.CountExact) : pq.msgCount = 0 ↔ pq.waiting = [] := by
  rw [h, Int.natCast_eq_zero, List.length_eq_zero_iff]

end Count

/-- **The counter is exact** in every state of a sequence of puts and removals exactly when all of
them count right. -/
theorem countExact_iff_countsRight (now : Nat) (calls : List BufferCall) :
    (∀ pq, Base.Visits bufferStep (new now) calls pq → pq.CountExact) ↔
      Base.Along bufferStep CountsRight (new now) calls := by
  obtain ⟨pq', hrun⟩ := exists_runFrom_bufferStep (new now) calls
  exact Base.safe_iff_along (fun _ h ↦ h)
    (fun _ _ _ h hright hstep ↦ (countExact_step_iff h hstep).mpr hright)
    (fun _ _ _ h hwrong hstep ↦ mt (countExact_step_iff h hstep).mp hwrong)
    (countExact_new now) hrun

/-- An offset that is put once more while it is buffered is counted twice. Once it is removed the
counter stays at one, with nothing buffered. -/
theorem put_again_counts_twice :
    ¬ (∀ pq, Base.Visits bufferStep (new 0)
        [.put [.at 5], .put [.at 5], .remove [.at 5]] pq → pq.CountExact) ∧
      ∃ pq, Base.runFrom bufferStep (new 0)
          [.put [.at 5], .put [.at 5], .remove [.at 5]] = some pq ∧
        pq.waiting = [] ∧ pq.msgCount = 1 := by
  have hrun : ∃ pq, Base.runFrom bufferStep (new 0)
      [.put [.at 5], .put [.at 5], .remove [.at 5]] = some pq ∧
        pq.waiting = [] ∧ pq.msgCount = 1 := ⟨_, rfl, by decide +kernel, by decide +kernel⟩
  refine ⟨fun hexact ↦ ?_, hrun⟩
  obtain ⟨pq, hpq, hempty, hcount⟩ := hrun
  have hzero := (hexact pq ⟨_, List.prefix_rfl, hpq⟩).eq_zero_iff.mpr hempty
  rw [hcount] at hzero
  exact absurd hzero (by decide)

end ProcessQueue
end RocketMQ
