import RocketMQ.Message.MessageDecoder

/-!
# Decoding any bytes

`decode` believes the three lengths that it reads, and `decodes` goes on by their sum. The
records that keep inside the buffer are told by these lengths; decoding is safe when the buffer
is a chain of such records from its front to its end.
-/

namespace RocketMQ
namespace MessageDecoder

/-- `decodes` comes back, having read inside the buffer and copied no negative number of bytes,
without a `NULL` in its list. -/
def Safe (inflate : StdString → Option StdString) (buf : StdString) : Prop :=
  ∃ list, Decodes inflate buf list

/-! ### Records that keep inside the buffer -/

/-- `n` bytes from a position are inside. -/
def Inside (buf : StdString) (off : Int) (n : Nat) : Prop := 0 ≤ off ∧ off + n ≤ buf.length

instance (buf : StdString) (off : Int) (n : Nat) : Decidable (Inside buf off n) :=
  inferInstanceAs (Decidable (_ ∧ _))

/-- The number in `n` bytes. -/
def numberAt (buf : StdString) (off : Int) (n : Nat) : Int :=
  Base.beInt ((buf.drop off.toNat).take n)

/-- Where the topic length of the record at a position stands: behind the body. -/
def topicAt (buf : StdString) (pos : Int) : Int := pos + 88 + numberAt buf (pos + 84) 4

/-- Where its property length stands: behind the topic. -/
def propertiesAt (buf : StdString) (pos : Int) : Int :=
  topicAt buf pos + 1 + numberAt buf (topicAt buf pos) 1

/-- Where its properties end. -/
def recordEnd (buf : StdString) (pos : Int) : Int :=
  propertiesAt buf pos + 2 + numberAt buf (propertiesAt buf pos) 2

/-- The lengths of the record at a position keep it inside the buffer: its fixed fields, its
body with the topic length behind, a topic of non-negative length with the property length
behind, and its properties. -/
def Intact (buf : StdString) (pos : Int) : Prop :=
  Inside buf pos 88 ∧ Inside buf (topicAt buf pos) 1 ∧ 0 ≤ numberAt buf (topicAt buf pos) 1 ∧
    Inside buf (propertiesAt buf pos) 2 ∧ recordEnd buf pos ≤ buf.length

instance (buf : StdString) (pos : Int) : Decidable (Intact buf pos) :=
  inferInstanceAs (Decidable (_ ∧ _ ∧ _ ∧ _ ∧ _))

/-- From a position on, one intact record behind the other up to the end of the buffer. -/
inductive Chain (buf : StdString) : Int → Prop where
  | done {pos : Int} (hend : buf.length ≤ pos) : Chain buf pos
  | record {pos : Int} (hpos : pos < buf.length) (hintact : Intact buf pos)
      (hnext : Chain buf (recordEnd buf pos)) : Chain buf pos

/-! ### Reads -/

section Reads

variable {buf bytes : StdString} {off x : Int} {n : Nat}

theorem bind_eq_ok {α β : Type} {x : Except DecodeFault α} {f : α → Except DecodeFault β} {b : β} :
    x >>= f = .ok b ↔ ∃ a, x = .ok a ∧ f a = .ok b := by
  cases x with
  | ok a => simp [bind, Except.bind]
  | error fault => simp [bind, Except.bind]

theorem read_of_inside (h : Inside buf off n) :
    read buf off n = .ok ((buf.drop off.toNat).take n) := by
  have hin : 0 ≤ off ∧ off + n ≤ buf.length := h
  rw [read, Base.readAt, if_pos hin]

theorem read_of_not_inside (h : ¬ Inside buf off n) : read buf off n = .error .outside := by
  have hout : ¬ (0 ≤ off ∧ off + n ≤ buf.length) := h
  rw [read, Base.readAt, if_neg hout]

theorem readInt_of_inside (h : Inside buf off n) :
    readInt buf off n = .ok (numberAt buf off n) := by
  rw [readInt, read_of_inside h]
  rfl

theorem inside_of_read (h : read buf off n = .ok bytes) : Inside buf off n := by
  by_contra hout
  rw [read_of_not_inside hout] at h
  cases h

/-- A number that was read is the one that stands there. -/
theorem inside_of_readInt (h : readInt buf off n = .ok x) :
    Inside buf off n ∧ x = numberAt buf off n := by
  by_cases hin : Inside buf off n
  · rw [readInt_of_inside hin] at h
    cases h
    exact ⟨hin, rfl⟩
  · rw [readInt, read_of_not_inside hin] at h
    cases h

/-- A part of what is inside is inside. -/
theorem Inside.mono {off' : Int} {n' : Nat} (h : Inside buf off n) (hoff : off ≤ off')
    (hend : off' + n' ≤ off + n) : Inside buf off' n' :=
  ⟨h.1.trans hoff, hend.trans h.2⟩

theorem readHost_of_inside (h : Inside buf off 8) : ∃ host, readHost buf off = .ok host := by
  have hip : Inside buf off 4 := h.mono (Int.le_refl _) (by omega)
  have hport : Inside buf (off + 4) 4 := h.mono (by omega) (by omega)
  rw [readHost, read_of_inside hip, readInt_of_inside hport]
  exact ⟨_, rfl⟩

theorem readBody_of_inside (inflate : StdString → Option StdString) (sysFlag : Int) {bodyLen : Int}
    (h : 0 < bodyLen → Inside buf off bodyLen.toNat) :
    ∃ body, readBody inflate buf off sysFlag bodyLen = .ok body := by
  rw [readBody]
  split_ifs with hpos
  · rw [read_of_inside (h hpos)]
    exact ⟨_, rfl⟩
  · exact ⟨_, rfl⟩

theorem readProperties_of_inside {propertiesLength : Int}
    (h : 0 < propertiesLength → Inside buf off propertiesLength.toNat) :
    ∃ properties, readProperties buf off propertiesLength = .ok properties := by
  rw [readProperties]
  split_ifs with hpos
  · rw [read_of_inside (h hpos)]
    exact ⟨_, rfl⟩
  · exact ⟨_, rfl⟩

theorem inside_of_readProperties {propertiesLength : Int}
    {properties : Std.ExtTreeMap StdString StdString}
    (h : readProperties buf off propertiesLength = .ok properties) (hpos : 0 < propertiesLength) :
    Inside buf off propertiesLength.toNat := by
  rw [readProperties, if_pos hpos] at h
  cases hread : read buf off propertiesLength.toNat with
  | ok bytes => exact inside_of_read hread
  | error fault =>
    rw [hread] at h
    cases h

end Reads

/-! ### One record -/

section Decode

variable {inflate : StdString → Option StdString} {buf : StdString} {pos size : Int}
  {msg : MessageExt}

/-- An intact record is decoded, and the offset reported is how far it reaches. -/
theorem decode_of_intact (inflate : StdString → Option StdString) (h : Intact buf pos) :
    ∃ msg, decode inflate buf pos = .ok (some (msg, recordEnd buf pos - pos)) := by
  obtain ⟨hfixed, htopicIn, hnonneg, hpropertiesIn, hend⟩ := h
  have hreadFixed : ∀ (d : Int) (n : Nat), 0 ≤ d → d + n ≤ 88 →
      readInt buf (pos + d) n = .ok (numberAt buf (pos + d) n) :=
    fun d n hd hle ↦ readInt_of_inside (hfixed.mono (by omega) (by omega))
  obtain ⟨bornHost, hbornHost⟩ : ∃ host, readHost buf (pos + 48) = .ok host :=
    readHost_of_inside (hfixed.mono (by omega) (by omega))
  obtain ⟨storeHost, hstoreHost⟩ : ∃ host, readHost buf (pos + 64) = .ok host :=
    readHost_of_inside (hfixed.mono (by omega) (by omega))
  have hstoreSize : readInt buf pos 4 = .ok (numberAt buf pos 4) :=
    readInt_of_inside (hfixed.mono (by omega) (by omega))
  have htopicAt : pos + 88 + numberAt buf (pos + 84) 4 = topicAt buf pos := rfl
  have hpropertiesAt : topicAt buf pos + 1 + numberAt buf (topicAt buf pos) 1 =
      propertiesAt buf pos := rfl
  have hrecordEnd : propertiesAt buf pos + 2 + numberAt buf (propertiesAt buf pos) 2 =
      recordEnd buf pos := rfl
  have htopicPos := htopicIn.1
  have htopicEnd := htopicIn.2
  have hpropertiesEnd := hpropertiesIn.2
  have hpos := hfixed.1
  have hbodyIn : 0 < numberAt buf (pos + 84) 4 →
      Inside buf (pos + 88) (numberAt buf (pos + 84) 4).toNat := fun _ ↦ ⟨by omega, by omega⟩
  obtain ⟨body, hbody⟩ := readBody_of_inside inflate (numberAt buf (pos + 36) 4) hbodyIn
  have htopic : read buf (topicAt buf pos + 1) (numberAt buf (topicAt buf pos) 1).toNat = .ok _ :=
    read_of_inside ⟨by omega, by omega⟩
  have hpropertiesTextIn : 0 < numberAt buf (propertiesAt buf pos) 2 →
      Inside buf (propertiesAt buf pos + 2) (numberAt buf (propertiesAt buf pos) 2).toNat :=
    fun _ ↦ ⟨by omega, by omega⟩
  obtain ⟨properties, hproperties⟩ := readProperties_of_inside hpropertiesTextIn
  have hsize : 88 + numberAt buf (pos + 84) 4 + 1 + numberAt buf (topicAt buf pos) 1 + 2 +
      numberAt buf (propertiesAt buf pos) 2 = recordEnd buf pos - pos := by
    omega
  have hnot : ¬ numberAt buf (topicAt buf pos) 1 < -1 ∧ ¬ numberAt buf (topicAt buf pos) 1 < 0 := by
    omega
  simp only [decode, bind, Except.bind, pure, Except.pure, hstoreSize,
    hreadFixed 8 4 (by decide) (by decide), hreadFixed 12 4 (by decide) (by decide),
    hreadFixed 16 4 (by decide) (by decide), hreadFixed 20 8 (by decide) (by decide),
    hreadFixed 28 8 (by decide) (by decide), hreadFixed 36 4 (by decide) (by decide),
    hreadFixed 40 8 (by decide) (by decide), hbornHost, hreadFixed 56 8 (by decide) (by decide),
    hstoreHost, hreadFixed 72 4 (by decide) (by decide), hreadFixed 76 8 (by decide) (by decide),
    hreadFixed 84 4 (by decide) (by decide), hbody, htopicAt, readInt_of_inside htopicIn,
    if_neg hnot.1, if_neg hnot.2, htopic, hpropertiesAt, readInt_of_inside hpropertiesIn,
    hproperties, hsize]
  exact ⟨_, rfl⟩

/-- Only intact records are decoded. -/
theorem intact_of_decode (h : decode inflate buf pos = .ok (some (msg, size))) :
    Intact buf pos ∧ size = recordEnd buf pos - pos := by
  simp only [decode, bind_eq_ok] at h
  obtain ⟨storeSize, hstoreSize, bodyCRC, -, queueId, -, flag, -, queueOffset, -, physicOffset, -,
    sysFlag, -, bornTimestamp, -, bornHost, -, storeTimestamp, -, storeHost, -, reconsumeTimes, -,
    preparedTransactionOffset, -, bodyLen, hbodyLen, body, -, topicLen, htopicLen, h⟩ := h
  obtain ⟨hfirst, -⟩ := inside_of_readInt hstoreSize
  obtain ⟨hlast, rfl⟩ := inside_of_readInt hbodyLen
  obtain ⟨htopicIn, rfl⟩ := inside_of_readInt htopicLen
  split_ifs at h with hfar hneg
  · cases h
  · simp only [bind_eq_ok] at h
    obtain ⟨topic, -, propertiesLen, hpropertiesLen, properties, hproperties, h⟩ := h
    obtain ⟨hpropertiesIn, rfl⟩ := inside_of_readInt hpropertiesLen
    obtain ⟨-, rfl⟩ : _ = msg ∧ _ = size := by simpa only [pure, Except.pure, Except.ok.injEq,
      Option.some.injEq, Prod.mk.injEq] using h
    have hend : recordEnd buf pos ≤ buf.length := by
      rcases Int.lt_or_le 0 (numberAt buf (propertiesAt buf pos) 2) with hpositive | hnone
      · have hin : propertiesAt buf pos + 2 + (numberAt buf (propertiesAt buf pos) 2).toNat ≤
            buf.length := (inside_of_readProperties hproperties hpositive).2
        rw [Int.toNat_of_nonneg hpositive.le] at hin
        exact hin
      · have hin : propertiesAt buf pos + 2 ≤ buf.length := hpropertiesIn.2
        rw [recordEnd]
        omega
    refine ⟨⟨⟨hfirst.1, ?_⟩, htopicIn, Int.not_lt.mp hneg, hpropertiesIn, hend⟩, ?_⟩
    · have := hlast.2
      omega
    · rw [recordEnd, propertiesAt, topicAt]
      omega

end Decode

/-! ### All records -/

section Safety

variable {inflate : StdString → Option StdString} {buf : StdString} {pos : Int}
  {list : List (MessageExt × Int)}

/-- A pass leaves at the end of the buffer, goes on behind an intact record, and otherwise
leaves with a fault. -/
theorem decodesPass_of_end (inflate : StdString → Option StdString) (hend : buf.length ≤ pos) :
    decodesPass inflate buf (pos, list) = .leave (.ok list) := by
  rw [decodesPass, if_neg (Int.not_lt.mpr hend)]

theorem decodesPass_of_intact (inflate : StdString → Option StdString)
    (list : List (MessageExt × Int)) (hpos : pos < buf.length) (h : Intact buf pos) :
    ∃ msg, decodesPass inflate buf (pos, list) =
      .again (recordEnd buf pos, list ++ [(msg, recordEnd buf pos - pos)]) := by
  obtain ⟨msg, hmsg⟩ := decode_of_intact inflate h
  refine ⟨msg, ?_⟩
  simp only [decodesPass, if_pos hpos, hmsg, add_sub_cancel]

theorem decodesPass_of_not_intact (inflate : StdString → Option StdString)
    (list : List (MessageExt × Int)) (hpos : pos < buf.length) (h : ¬ Intact buf pos) :
    ∃ fault, decodesPass inflate buf (pos, list) = .leave (.error fault) := by
  rw [decodesPass, if_pos hpos]
  cases hdecode : decode inflate buf pos with
  | error fault => exact ⟨fault, rfl⟩
  | ok entry =>
    cases entry with
    | none => exact ⟨.nullEntry, rfl⟩
    | some entry => exact absurd (intact_of_decode hdecode).1 h

/-- Along a chain the loop comes back with messages. -/
theorem yields_of_chain (inflate : StdString → Option StdString) (h : Chain buf pos) :
    ∃ out, Base.Yields (decodesPass inflate buf) (pos, list) (.ok out) := by
  induction h generalizing list with
  | done hend => exact ⟨list, Base.yields_of_leave (decodesPass_of_end inflate hend)⟩
  | record hpos hintact _ ih =>
    obtain ⟨msg, hpass⟩ := decodesPass_of_intact inflate list hpos hintact
    obtain ⟨out, hout⟩ := @ih (list ++ [(msg, _)])
    exact ⟨out, (Base.yields_iff_of_again hpass).mpr hout⟩

/-- When it does, it has passed a chain. -/
theorem chain_of_yields {out : List (MessageExt × Int)}
    (h : Base.Yields (decodesPass inflate buf) (pos, list) (.ok out)) : Chain buf pos := by
  obtain ⟨passes, hloop⟩ := h
  induction passes generalizing pos list with
  | zero => cases hloop
  | succ passes ih =>
    rcases Int.lt_or_le pos buf.length with hpos | hend
    · by_cases hintact : Intact buf pos
      · obtain ⟨msg, hpass⟩ := decodesPass_of_intact inflate list hpos hintact
        rw [Base.loop_of_again passes hpass] at hloop
        exact .record hpos hintact (ih hloop)
      · obtain ⟨fault, hpass⟩ := decodesPass_of_not_intact inflate list hpos hintact
        rw [Base.loop_of_leave passes hpass] at hloop
        cases hloop
    · exact .done hend

/-- **Safe decoding**: it is safe exactly when the buffer is a chain of intact records. -/
theorem safe_iff_chain (inflate : StdString → Option StdString) (buf : StdString) :
    Safe inflate buf ↔ Chain buf 0 := by
  constructor
  · rintro ⟨out, h⟩
    exact chain_of_yields h
  · intro h
    exact yields_of_chain inflate h

end Safety

/-- A record whose three lengths add up to a size of 0: its properties have the length -91. -/
def emptySized : StdString := List.replicate 89 0 ++ [255, 165]

/-- One byte is read behind, and a record of size 0 is decoded again and again. -/
theorem truncated_and_emptySized_unsafe :
    ¬ Safe (fun _ ↦ none) [0] ∧ ¬ Base.Ends (decodesPass (fun _ ↦ none) emptySized) (0, []) ∧
      ¬ Safe (fun _ ↦ none) emptySized := by
  have hhangs : ¬ Base.Ends (decodesPass (fun _ ↦ none) emptySized) (0, []) := by
    refine Base.not_ends_of_stuck (fun s ↦ s.1 = 0) ?_ rfl
    rintro ⟨pos, list⟩ rfl
    have hintact : Intact emptySized 0 := by decide
    have hend : recordEnd emptySized 0 = 0 := by decide
    obtain ⟨msg, hpass⟩ := decodesPass_of_intact (fun _ ↦ none) list (by decide) hintact
    exact ⟨_, hpass, hend⟩
  refine ⟨?_, hhangs, fun ⟨out, hout⟩ ↦ hhangs ⟨_, hout⟩⟩
  rintro ⟨out, hout⟩
  obtain ⟨fault, hpass⟩ : ∃ fault, decodesPass (fun _ ↦ none) [0] (0, []) =
      .leave (.error fault) := decodesPass_of_not_intact _ [] (by decide) (by decide)
  cases Base.yields_unique hout (Base.yields_of_leave hpass)

end MessageDecoder
end RocketMQ
