import RocketMQ.Common.MQException
import RocketMQ.Common.VirtualEnv
import RocketMQ.Message.Message

/-!
# Checks before a message is sent

`src/common/Validators.cpp`. The pattern matcher of the source looks at blank strings only, so
that `checkTopic` accepts characters that its own message calls illegal.
-/

namespace RocketMQ.Validators

/-- `Validators::validPatternStr`. -/
def validPatternStr : StdString := str "^[a-zA-Z0-9_-]+$"

/-- `Validators::CHARACTER_MAX_LENGTH`. -/
def characterMaxLength : Nat := 255

/-- `MixAll::DEFAULT_TOPIC`, `src/common/MixAll.cpp:21`. -/
def defaultTopic : StdString := str "TBW102"

/-- `src/common/Validators.cpp:30–47`. -/
def regularExpressionMatcher (origin patternStr : StdString) : Bool :=
  if isBlank origin then false else if isBlank patternStr then true else true

/-- `src/common/Validators.cpp:59–84`. -/
def checkTopic (topic : StdString) : Except MQException Unit :=
  if isBlank topic then .error (.client (str "the specified topic is blank") (-1))
  else if topic.length > characterMaxLength then
    .error (.client (str "the specified topic is longer than topic max length 255.") (-1))
  else if topic = defaultTopic then
    .error (.client (str "the topic[" ++ topic ++ str "] is conflict with default topic.") (-1))
  else if !regularExpressionMatcher topic validPatternStr then
    .error (.client (str "the specified topic[" ++ topic ++
      str "] contains illegal characters, allowing only" ++ validPatternStr) (-1))
  else .ok ()

/-- `src/common/Validators.cpp:106–127`. -/
def checkMessage (msg : Message) (maxMessageSize : Int) : Except MQException Unit :=
  match checkTopic msg.topic with
  | .error e => .error e
  | .ok () =>
    if msg.body = none then .error (.client (str "the message body is null") (-1))
    else if msg.bodyLen = 0 then .error (.client (str "the message body length is zero") (-1))
    else if msg.bodyLen > maxMessageSize then
      .error (.client (str "the message body size over max value, MAX: " ++
        str (toString maxMessageSize)) (-1))
    else .ok ()

/-! ### The topics that are accepted -/

/-- A character of `[a-zA-Z0-9_-]`. -/
def legalCharacter (c : UInt8) : Bool :=
  (97 ≤ c && c ≤ 122) || (65 ≤ c && c ≤ 90) || (48 ≤ c && c ≤ 57) || c = 95 || c = 45

/-- The topics that `validPatternStr` and the messages of the checks speak of. -/
structure LegalTopic (topic : StdString) : Prop where
  one_le : 1 ≤ topic.length
  length_le : topic.length ≤ characterMaxLength
  legal : ∀ c ∈ topic, legalCharacter c
  not_default : topic ≠ defaultTopic

/-- `checkTopic` accepts a legal topic, and throws an `MQClientException` otherwise. -/
structure CheckedRight (topic : StdString) : Prop where
  accepts_iff : checkTopic topic = .ok () ↔ LegalTopic topic
  throws : ¬ LegalTopic topic → ∃ e, checkTopic topic = .error e ∧ e.type = .mqClientException

section CheckTopic

variable {topic : StdString}

/-- Whatever `checkTopic` throws is an `MQClientException` with the error -1. -/
theorem checkTopic_error {e : MQException} (h : checkTopic topic = .error e) :
    e.type = .mqClientException ∧ e.error = -1 := by
  rw [checkTopic] at h
  split_ifs at h
  all_goals
    cases h
    exact ⟨rfl, rfl⟩

/-- The pattern plays no part. -/
theorem checkTopic_eq_ok_iff :
    checkTopic topic = .ok () ↔ isBlank topic = false ∧ topic.length ≤ characterMaxLength ∧
      topic ≠ defaultTopic := by
  rw [checkTopic]
  cases hblank : isBlank topic with
  | true => exact iff_of_false nofun nofun
  | false =>
    have hmatch : regularExpressionMatcher topic validPatternStr = true := by
      rw [regularExpressionMatcher, hblank]
      simp
    rw [hmatch, if_neg Bool.false_ne_true]
    by_cases hlen : topic.length ≤ characterMaxLength
    · rw [if_neg (Nat.not_lt.mpr hlen)]
      by_cases hdefault : topic = defaultTopic
      · rw [if_pos hdefault]
        exact iff_of_false nofun fun h ↦ h.2.2 hdefault
      · rw [if_neg hdefault]
        exact iff_of_true rfl ⟨rfl, hlen, hdefault⟩
    · rw [if_pos (Nat.not_le.mp hlen)]
      exact iff_of_false nofun fun h ↦ hlen h.2.1

theorem not_legal_of_whitespace : ∀ c ∈ whitespace, legalCharacter c = false := by
  have hall : whitespace.all (fun c ↦ !legalCharacter c) = true := by decide
  exact fun c hc ↦ Bool.not_eq_true' _ ▸ List.all_eq_true.mp hall c hc

theorem LegalTopic.not_isBlank (h : LegalTopic topic) : isBlank topic = false := by
  obtain ⟨c, hc⟩ := List.exists_mem_of_length_pos h.one_le
  rw [isBlank, List.all_eq_false]
  refine ⟨c, hc, fun hspace ↦ ?_⟩
  have hnot := not_legal_of_whitespace c (List.contains_iff_mem.mp hspace)
  rw [h.legal c hc] at hnot
  cases hnot

theorem LegalTopic.accepted (h : LegalTopic topic) : checkTopic topic = .ok () :=
  checkTopic_eq_ok_iff.mpr ⟨h.not_isBlank, h.length_le, h.not_default⟩

/-- Every topic that is not accepted is refused with an `MQClientException`. -/
theorem throws_of_not_ok (h : checkTopic topic ≠ .ok ()) :
    ∃ e, checkTopic topic = .error e ∧ e.type = .mqClientException := by
  cases hcheck : checkTopic topic with
  | ok _ => exact absurd hcheck h
  | error e => exact ⟨e, rfl, (checkTopic_error hcheck).1⟩

/-- **Topic validation**: a topic is checked as documented exactly when one of the checks before
the pattern refuses it, or when all its characters are legal. -/
theorem checkedRight_iff (topic : StdString) :
    CheckedRight topic ↔ isBlank topic = true ∨ characterMaxLength < topic.length ∨
      topic = defaultTopic ∨ ∀ c ∈ topic, legalCharacter c := by
  constructor
  · intro h
    by_contra hnone
    obtain ⟨hblank, hlen, hdefault, hillegal⟩ := not_or.mp hnone |>.imp_right fun h ↦
      (not_or.mp h).imp_right not_or.mp
    have haccepted := checkTopic_eq_ok_iff.mpr
      ⟨Bool.not_eq_true _ ▸ hblank, Nat.not_lt.mp hlen, hdefault⟩
    exact hillegal (h.accepts_iff.mp haccepted).legal
  · intro h
    have hiff : checkTopic topic = .ok () ↔ LegalTopic topic := by
      refine ⟨fun hok ↦ ?_, LegalTopic.accepted⟩
      obtain ⟨hblank, hlen, hdefault⟩ := checkTopic_eq_ok_iff.mp hok
      rcases h with hblank' | hlong | hdefault' | hlegal
      · rw [hblank] at hblank'
        cases hblank'
      · exact absurd hlen (Nat.not_le.mpr hlong)
      · exact absurd hdefault' hdefault
      · refine ⟨Nat.one_le_iff_ne_zero.mpr fun hzero ↦ ?_, hlen, hlegal, hdefault⟩
        rw [List.eq_nil_of_length_eq_zero hzero] at hblank
        cases hblank
    exact ⟨hiff, fun hnot ↦ throws_of_not_ok (mt hiff.mp hnot)⟩

/-- A topic with a `%` and a space in it is accepted. -/
theorem percent_accepted :
    checkTopic (str "50% off") = .ok () ∧ ¬ CheckedRight (str "50% off") := by
  have haccepted : checkTopic (str "50% off") = .ok () := by decide
  refine ⟨haccepted, fun h ↦ ?_⟩
  have hlegal := (h.accepts_iff.mp haccepted).legal 37 (by decide)
  cases hlegal

end CheckTopic

end RocketMQ.Validators
