import RocketMQ.Producer.TopicPublishInfo
import RocketMQ.Protocol.FrameRoundTrip

/-!
# Decoding a frame that cannot be trusted

`Decode` parses the header without its length, and then takes that length as an offset and out
of the length of the frame, whatever it is. What goes wrong is told apart here.
-/

namespace RocketMQ

/-- What can go wrong with received bytes: the JSON library throws, one of its assertions
fails, a null pointer is used, or bytes outside of the frame are. -/
inductive Fault where
  | raised
  | aborted
  | nullPointer
  | outside
deriving DecidableEq

/-- The value, or else the fault. -/
def require {α : Type} (fault : Fault) : Option α → Except Fault α
  | some a => .ok a
  | none => .error fault

namespace Protocol.RemotingCommand

open Base (Json)

/-- The part of `Decode` that reads the header text, `src/protocol/RemotingCommand.cpp:148–175`.
`operator[]` asserts that its value has members, and the conversions throw. -/
def decodeHeader (lib : JsonLibrary) (text : StdString) : Except Fault (Option RemotingCommand) :=
  match lib.parse text with
  | none => .ok none
  | some object => do
    let code ← require .raised (lib.asInt (← require .aborted (member object (str "code"))))
    let language ← require .raised (asString (← require .aborted (member object (str "language"))))
    let version ← require .raised (lib.asInt (← require .aborted (member object (str "version"))))
    let opaqueId ← require .raised (lib.asInt (← require .aborted (member object (str "opaque"))))
    let flag ← require .raised (lib.asInt (← require .aborted (member object (str "flag"))))
    let remark ← require .raised (asString (← require .aborted (member object (str "remark"))))
    return some ⟨code, language, version, opaqueId, flag, remark, none, none⟩

/-- The part of `Decode` that attaches the body, `src/protocol/RemotingCommand.cpp:127–142,177–187`.
The length of the body is an `int`. -/
def attachBody (pData : StdString) (cmd : RemotingCommand) : Except Fault RemotingCommand := do
  let headLen := Base.beInt (← require .outside (Base.readAt pData 4 4))
  let bodyLen := toInt32 (pData.length - 8 - headLen)
  if bodyLen > 0 then
    let body ← require .outside (Base.readAt pData (8 + headLen) bodyLen.toNat)
    return { cmd with body := some body }
  else return cmd

/-- The text behind the two lengths, up to the first zero byte. -/
def headerTextOf (pData : StdString) : StdString := cString (pData.drop 8)

/-- `src/protocol/RemotingCommand.cpp:144–188`. The text of a shorter frame is read behind it. -/
def decodeFrame (lib : JsonLibrary) (pData : StdString) :
    Except Fault (Option RemotingCommand) := do
  if pData.length < 8 then throw .outside
  match ← decodeHeader lib (headerTextOf pData) with
  | none => return none
  | some cmd => return some (← attachBody pData cmd)

/-! ### What is right -/

/-- The length of the header that a frame claims. -/
def headLen (pData : StdString) : Int := Base.beInt ((pData.drop 4).take 4)

/-- A header of that length fits into the frame. -/
def HeadFits (pData : StdString) : Prop :=
  0 ≤ headLen pData ∧ headLen pData ≤ pData.length - 8

instance (pData : StdString) : Decidable (HeadFits pData) := inferInstanceAs (Decidable (_ ∧ _))

/-- The bytes that are copied as the body, if there are any, are bytes of the frame. -/
def BodyInside (pData : StdString) : Prop :=
  toInt32 (pData.length - 8 - headLen pData) > 0 → 0 ≤ 8 + headLen pData ∧
    8 + headLen pData + toInt32 (pData.length - 8 - headLen pData) ≤ pData.length

/-- No command is made of a frame: `NULL` is returned, or an exception is thrown. -/
def Rejects (lib : JsonLibrary) (pData : StdString) : Prop :=
  decodeFrame lib pData = .ok none ∨ decodeFrame lib pData = .error .raised

/-- Decoding stays inside the frame: the header of a command that is returned fits, its body is
what follows the header, and a frame whose header does not fit is rejected. -/
structure StaysInside (lib : JsonLibrary) (pData : StdString) : Prop where
  inside : decodeFrame lib pData ≠ .error .outside
  body : ∀ cmd, decodeFrame lib pData = .ok (some cmd) → HeadFits pData ∧
    cmd.body.getD [] = pData.drop (8 + headLen pData).toNat ∧
    cmd.bodyLen = pData.length - 8 - headLen pData
  rejects : ¬ HeadFits pData → Rejects lib pData

/-- A value that `operator[]` accepts. -/
def HasMembers : Json → Prop
  | .null | .object _ => True
  | .bool _ | .int _ | .decimal _ | .string _ | .array _ => False

/-- A field of the header is of a type that is not converted. -/
def Inconvertible (lib : JsonLibrary) (object : Json) : Prop :=
  (∃ name ∈ ["code", "version", "opaque", "flag"],
    ∃ value ∈ member object (str name), lib.asInt value = none) ∨
  ∃ name ∈ ["language", "remark"], ∃ value ∈ member object (str name), asString value = none

/-- The header text is no JSON, or has such a field. -/
def HeaderRejected (lib : JsonLibrary) (pData : StdString) : Prop :=
  ∀ object ∈ lib.parse (headerTextOf pData), Inconvertible lib object

/-- What `asInt` makes of a field. -/
def intField (lib : JsonLibrary) (object : Json) (name : String) : Int32 :=
  ((member object (str name)).bind lib.asInt).getD 0

/-- What `asString` makes of a field. -/
def textField (object : Json) (name : String) : StdString :=
  ((member object (str name)).bind asString).getD []

/-- The command of a header whose fields can all be converted, without its body. -/
def headerOf (lib : JsonLibrary) (object : Json) : RemotingCommand :=
  ⟨intField lib object "code", textField object "language", intField lib object "version",
    intField lib object "opaque", intField lib object "flag", textField object "remark", none, none⟩

/-! ### The header text -/

section Decode

variable {lib : JsonLibrary} {pData text : StdString} {object : Json} {cmd : RemotingCommand}

@[simp] theorem require_some {α : Type} (fault : Fault) (a : α) : require fault (some a) = .ok a :=
  rfl

@[simp] theorem require_none {α : Type} (fault : Fault) :
    require fault (none : Option α) = .error fault := rfl

theorem bind_ok {α β : Type} (a : α) (f : α → Except Fault β) : (Except.ok a >>= f) = f a := rfl

theorem bind_error {α β : Type} (fault : Fault) (f : α → Except Fault β) :
    (Except.error fault >>= f) = .error fault := rfl

theorem HasMembers.exists_member (h : HasMembers object) (name : StdString) :
    ∃ value, member object name = some value := by
  cases object with
  | null => exact ⟨_, rfl⟩
  | object members => exact ⟨_, rfl⟩
  | bool | int | decimal | string | array => exact h.elim

theorem member_of_not_hasMembers (h : ¬ HasMembers object) (name : StdString) :
    member object name = none := by
  cases object with
  | null | object => exact absurd trivial h
  | bool | int | decimal | string | array => rfl

theorem decodeHeader_of_no_json (hparse : lib.parse text = none) :
    decodeHeader lib text = .ok none := by
  unfold decodeHeader
  rw [hparse]

/-- An object whose fields cannot all be converted makes the conversion throw, and any other one
is a command. -/
theorem decodeHeader_of_members (hparse : lib.parse text = some object)
    (hmembers : HasMembers object) :
    Inconvertible lib object ∧ decodeHeader lib text = .error .raised ∨
      ¬ Inconvertible lib object ∧ decodeHeader lib text = .ok (some (headerOf lib object)) := by
  obtain ⟨code, hcode⟩ := hmembers.exists_member (str "code")
  obtain ⟨language, hlanguage⟩ := hmembers.exists_member (str "language")
  obtain ⟨version, hversion⟩ := hmembers.exists_member (str "version")
  obtain ⟨opaqueId, hopaqueId⟩ := hmembers.exists_member (str "opaque")
  obtain ⟨flag, hflag⟩ := hmembers.exists_member (str "flag")
  obtain ⟨remark, hremark⟩ := hmembers.exists_member (str "remark")
  unfold decodeHeader Inconvertible headerOf intField textField
  rw [hparse]
  simp only [hcode, hlanguage, hversion, hopaqueId, hflag, hremark, require_some, bind_ok,
    List.mem_cons, List.not_mem_nil, or_false, exists_eq_or_imp, exists_eq_left,
    Option.mem_some_iff, exists_eq_left', Option.bind_some]
  cases lib.asInt code with
  | none => exact .inl ⟨.inl (.inl rfl), rfl⟩
  | some code =>
  cases asString language with
  | none => exact .inl ⟨.inr (.inl rfl), rfl⟩
  | some language =>
  cases lib.asInt version with
  | none => exact .inl ⟨.inl (.inr (.inl rfl)), rfl⟩
  | some version =>
  cases lib.asInt opaqueId with
  | none => exact .inl ⟨.inl (.inr (.inr (.inl rfl))), rfl⟩
  | some opaqueId =>
  cases lib.asInt flag with
  | none => exact .inl ⟨.inl (.inr (.inr (.inr rfl))), rfl⟩
  | some flag =>
  cases asString remark with
  | none => exact .inl ⟨.inr (.inr rfl), rfl⟩
  | some remark => exact .inr ⟨by simp, rfl⟩

/-- A value without members makes an assertion fail. -/
theorem decodeHeader_of_no_members (hparse : lib.parse text = some object)
    (hmembers : ¬ HasMembers object) :
    ¬ Inconvertible lib object ∧ decodeHeader lib text = .error .aborted := by
  unfold decodeHeader Inconvertible
  rw [hparse]
  simp [member_of_not_hasMembers hmembers, bind_error]

theorem decodeHeader_of_rejected (h : HeaderRejected lib pData) :
    decodeHeader lib (headerTextOf pData) = .ok none ∨
      decodeHeader lib (headerTextOf pData) = .error .raised := by
  cases hparse : lib.parse (headerTextOf pData) with
  | none => exact .inl (decodeHeader_of_no_json hparse)
  | some object =>
    have hinconvertible := h object hparse
    by_cases hmembers : HasMembers object
    · rcases decodeHeader_of_members hparse hmembers with ⟨-, hraised⟩ | ⟨hnot, -⟩
      · exact .inr hraised
      · exact absurd hinconvertible hnot
    · exact absurd hinconvertible (decodeHeader_of_no_members hparse hmembers).1

theorem decodeHeader_of_not_rejected (h : ¬ HeaderRejected lib pData) :
    (∃ object, decodeHeader lib (headerTextOf pData) = .ok (some (headerOf lib object))) ∨
      decodeHeader lib (headerTextOf pData) = .error .aborted := by
  unfold HeaderRejected at h
  push Not at h
  obtain ⟨object, hparse, hnot⟩ := h
  by_cases hmembers : HasMembers object
  · rcases decodeHeader_of_members hparse hmembers with ⟨hinconvertible, -⟩ | ⟨-, hcmd⟩
    · exact absurd hinconvertible hnot
    · exact .inl ⟨object, hcmd⟩
  · exact .inr (decodeHeader_of_no_members hparse hmembers).2

/-! ### The body -/

theorem readAt_headLen (hlen : 8 ≤ pData.length) :
    Base.readAt pData 4 4 = some ((pData.drop 4).take 4) := by
  rw [Base.readAt, if_pos (by omega)]
  rfl

theorem attachBody_eq (hlen : 8 ≤ pData.length) (cmd : RemotingCommand) :
    attachBody pData cmd =
      if toInt32 (pData.length - 8 - headLen pData) > 0 then
        require .outside (Base.readAt pData (8 + headLen pData)
          (toInt32 (pData.length - 8 - headLen pData)).toNat) >>= fun body ↦
            pure { cmd with body := some body }
      else pure cmd := by
  unfold attachBody
  rw [readAt_headLen hlen]
  rfl

/-- The body of a frame whose header fits is the rest of it. -/
theorem attachBody_of_fits (hlen : 8 ≤ pData.length) (hint : pData.length < 2 ^ 31)
    (hfits : HeadFits pData) (hbody : cmd.body = none) :
    ∃ cmd', attachBody pData cmd = .ok cmd' ∧
      cmd'.body.getD [] = pData.drop (8 + headLen pData).toNat := by
  obtain ⟨hlow, hhigh⟩ := hfits
  have hbodyLen : toInt32 (pData.length - 8 - headLen pData) =
      pData.length - 8 - headLen pData := by
    unfold toInt32
    apply Int.bmod_eq_of_le
    · omega
    · omega
  have hdrop : (pData.drop (8 + headLen pData).toNat).length =
      (pData.length - 8 - headLen pData).toNat := by
    rw [List.length_drop]
    omega
  rw [attachBody_eq hlen, hbodyLen]
  by_cases hpos : pData.length - 8 - headLen pData > 0
  · rw [if_pos hpos, Base.readAt, if_pos (by omega), ← hdrop, List.take_length]
    exact ⟨_, rfl, rfl⟩
  · rw [if_neg hpos]
    refine ⟨cmd, rfl, ?_⟩
    rw [hbody, Option.getD_none, eq_comm, List.drop_eq_nil_iff]
    omega

/-- Whatever the length of the header is, it is taken. -/
theorem attachBody_of_inside (hlen : 8 ≤ pData.length) (hinside : BodyInside pData)
    (cmd : RemotingCommand) : ∃ body, attachBody pData cmd = .ok { cmd with body } := by
  rw [attachBody_eq hlen]
  by_cases hpos : toInt32 (pData.length - 8 - headLen pData) > 0
  · have hread := hinside hpos
    rw [if_pos hpos, Base.readAt, if_pos (by omega)]
    exact ⟨_, rfl⟩
  · rw [if_neg hpos]
    exact ⟨_, rfl⟩

theorem attachBody_of_not_inside (hlen : 8 ≤ pData.length) (hinside : ¬ BodyInside pData)
    (cmd : RemotingCommand) : attachBody pData cmd = .error .outside := by
  unfold BodyInside at hinside
  push Not at hinside
  obtain ⟨hpos, hread⟩ := hinside
  rw [attachBody_eq hlen, if_pos hpos, Base.readAt, if_neg (by omega)]
  rfl

/-! ### The whole frame -/

theorem decodeFrame_of_header (hlen : 8 ≤ pData.length)
    (h : decodeHeader lib (headerTextOf pData) = .ok (some cmd)) :
    decodeFrame lib pData = (attachBody pData cmd).map some := by
  unfold decodeFrame
  rw [if_neg (Nat.not_lt.mpr hlen), h, bind_ok]
  dsimp only
  cases attachBody pData cmd with
  | ok => rfl
  | error => rfl

theorem decodeFrame_of_null (hlen : 8 ≤ pData.length)
    (h : decodeHeader lib (headerTextOf pData) = .ok none) :
    decodeFrame lib pData = .ok none := by
  unfold decodeFrame
  rw [if_neg (Nat.not_lt.mpr hlen), h]
  rfl

theorem decodeFrame_of_fault {fault : Fault} (hlen : 8 ≤ pData.length)
    (h : decodeHeader lib (headerTextOf pData) = .error fault) :
    decodeFrame lib pData = .error fault := by
  unfold decodeFrame
  rw [if_neg (Nat.not_lt.mpr hlen), h]
  rfl

theorem rejects_of_headerRejected (hlen : 8 ≤ pData.length) (h : HeaderRejected lib pData) :
    Rejects lib pData := by
  rcases decodeHeader_of_rejected h with hnull | hraised
  · exact .inl (decodeFrame_of_null hlen hnull)
  · exact .inr (decodeFrame_of_fault hlen hraised)

theorem Rejects.staysInside (h : Rejects lib pData) : StaysInside lib pData := by
  refine ⟨fun houtside ↦ ?_, fun cmd hcmd ↦ ?_, fun _ ↦ h⟩
  · rcases h with h | h <;> simp [h] at houtside
  · rcases h with h | h <;> simp [h] at hcmd

/-- A frame whose header fits stays inside, whatever its header text is. -/
theorem HeadFits.staysInside (hfits : HeadFits pData) (hlen : 8 ≤ pData.length)
    (hint : pData.length < 2 ^ 31) : StaysInside lib pData := by
  by_cases hrejected : HeaderRejected lib pData
  · exact (rejects_of_headerRejected hlen hrejected).staysInside
  rcases decodeHeader_of_not_rejected hrejected with ⟨object, hcmd⟩ | haborted
  · have hnobody : (headerOf lib object).body = none := rfl
    obtain ⟨cmd', hattach, hrest⟩ := attachBody_of_fits hlen hint hfits hnobody
    have hframe : decodeFrame lib pData = .ok (some cmd') := by
      rw [decodeFrame_of_header hlen hcmd, hattach]
      rfl
    refine ⟨by simp [hframe], fun cmd'' hcmd'' ↦ ?_, absurd hfits⟩
    rw [hframe] at hcmd''
    obtain rfl := Option.some.inj (Except.ok.inj hcmd'')
    refine ⟨hfits, hrest, ?_⟩
    rw [bodyLen_eq, hrest, List.length_drop]
    obtain ⟨hlow, hhigh⟩ := hfits
    omega
  · have hframe := decodeFrame_of_fault hlen haborted
    exact ⟨by simp [hframe], by simp [hframe], absurd hfits⟩

/-- Decoding stays inside exactly the frames whose header text is rejected or whose header
fits. -/
theorem staysInside_iff (lib : JsonLibrary) (hlen : 8 ≤ pData.length)
    (hint : pData.length < 2 ^ 31) :
    StaysInside lib pData ↔ HeaderRejected lib pData ∨ HeadFits pData := by
  constructor
  · intro hstays
    by_cases hrejected : HeaderRejected lib pData
    · exact .inl hrejected
    refine .inr ?_
    by_contra hfits
    have hrejects := hstays.rejects hfits
    rcases decodeHeader_of_not_rejected hrejected with ⟨object, hcmd⟩ | haborted
    · -- the length is not checked
      have hframe := decodeFrame_of_header hlen hcmd
      by_cases hinside : BodyInside pData
      · obtain ⟨body, hattach⟩ := attachBody_of_inside hlen hinside (headerOf lib object)
        rw [hattach] at hframe
        rcases hrejects with hnull | hraised
        · cases hframe.symm.trans hnull
        · cases hframe.symm.trans hraised
      · rw [attachBody_of_not_inside hlen hinside] at hframe
        exact hstays.inside hframe
    · have hframe := decodeFrame_of_fault hlen haborted
      rcases hrejects with hnull | hraised
      · cases hframe.symm.trans hnull
      · cases hframe.symm.trans hraised
  · rintro (hrejected | hfits)
    · exact (rejects_of_headerRejected hlen hrejected).staysInside
    · exact hfits.staysInside hlen hint

/-- A frame with an empty object as its header text, and two bytes of a body. -/
def emptyHeader (headLen : Int) : StdString :=
  Base.beIntBytes 4 8 ++ (Base.beIntBytes 4 headLen ++ str "{}ab")

theorem staysInside_emptyHeader_iff : StaysInside integerLibrary (emptyHeader 2) ↔
    HeaderRejected integerLibrary (emptyHeader 2) ∨ HeadFits (emptyHeader 2) :=
  staysInside_iff integerLibrary (by decide) (by decide)

/-- A header length that is too large is accepted without a body, and a negative one leads to
bytes in front of the frame. -/
theorem headLen_not_checked : ¬ StaysInside integerLibrary (emptyHeader 5) ∧
    decodeFrame integerLibrary (emptyHeader (-9)) = .error .outside := by
  have hlong : (decodeFrame integerLibrary (emptyHeader 5)).map Option.isSome = .ok true := by
    decide +kernel
  refine ⟨fun hstays ↦ ?_, rfl⟩
  rcases hstays.rejects (by decide +kernel) with hnull | hraised
  · rw [hnull] at hlong
    cases hlong
  · rw [hraised] at hlong
    cases hlong

/-! ### The frames of commands -/

theorem toOption_require {α : Type} (fault : Fault) (o : Option α) :
    (require fault o).toOption = o := by
  cases o with
  | none => rfl
  | some a => rfl

theorem toOption_bind {α β : Type} (a : Except Fault α) (f : α → Except Fault β) :
    (a >>= f).toOption = a.toOption.bind fun a ↦ (f a).toOption := by
  cases a with
  | ok => rfl
  | error => rfl

/-- Without overflow the body is what `decode` attaches. -/
theorem toOption_attachBody (hlen : 8 ≤ pData.length)
    (hint : toInt32 (pData.length - 8 - headLen pData) = pData.length - 8 - headLen pData)
    (cmd : RemotingCommand) :
    (attachBody pData cmd).toOption =
      if pData.length - 8 - headLen pData > 0 then
        (Base.readAt pData (8 + headLen pData) (pData.length - 8 - headLen pData).toNat).map
          fun body ↦ { cmd with body := some body }
      else some cmd := by
  rw [attachBody_eq hlen, hint]
  split_ifs with hpos
  · rw [toOption_bind, toOption_require]
    exact Option.map_eq_bind.symm
  · rfl

/-- A field that is read and converted. -/
theorem toOption_read_bind {α β γ : Type} {name : StdString} {convert : Json → Option α}
    {f : α → Except Fault β} {k : β → Except Fault γ} {g : α → Option γ}
    (h : ∀ a, (f a >>= k).toOption = g a) :
    ((require .aborted (member object name) >>= fun value ↦
        require .raised (convert value) >>= f) >>= k).toOption =
      member object name >>= fun value ↦ convert value >>= g := by
  cases member object name with
  | none => rfl
  | some value =>
    show ((require .raised (convert value) >>= f) >>= k).toOption = convert value >>= g
    cases convert value with
    | none => rfl
    | some a => exact h a

/-- Unless an `int` overflows, this is `decode` with its failures told apart. -/
theorem toOption_decodeFrame (hlen : 8 ≤ pData.length)
    (hint : toInt32 (pData.length - 8 - headLen pData) = pData.length - 8 - headLen pData) :
    (decodeFrame lib pData).toOption = decode lib pData := by
  unfold decodeFrame decodeHeader decode
  rw [if_neg (Nat.not_lt.mpr hlen), ← headerTextOf]
  cases lib.parse (headerTextOf pData) with
  | none => rfl
  | some object =>
    refine toOption_read_bind fun code ↦ toOption_read_bind fun language ↦
      toOption_read_bind fun version ↦ toOption_read_bind fun opaqueId ↦
      toOption_read_bind fun flag ↦ toOption_read_bind fun remark ↦ ?_
    have hattach := toOption_attachBody hlen hint
      ⟨code, language, version, opaqueId, flag, remark, none, none⟩
    rw [readAt_headLen hlen]
    show (attachBody pData _ >>= fun cmd ↦ pure (some cmd)).toOption = _
    rw [toOption_bind, hattach]
    by_cases hpos : pData.length - 8 - headLen pData > 0
    · rw [if_pos hpos]
      refine Eq.trans ?_ (if_pos hpos).symm
      show _ = ((Base.readAt pData (8 + headLen pData)
        (pData.length - 8 - headLen pData).toNat).map some).bind fun body ↦
          some (some (RemotingCommand.mk code language version opaqueId flag remark none body))
      cases Base.readAt pData (8 + headLen pData) (pData.length - 8 - headLen pData).toNat with
      | none => rfl
      | some body => rfl
    · rw [if_neg hpos]
      exact (if_neg hpos).symm

/-- The header of a frame that was made of a command fits, so decoding it stays inside. -/
theorem headFits_sent (hlen : cmd.encode.length + cmd.bodyLen < 2 ^ 31) : HeadFits cmd.sent := by
  obtain ⟨bytes, hbytes, hheadLen⟩ := readHeadLen_sent hlen
  have hlength : cmd.sent.length = 8 + cmd.headerText.length + cmd.bodyLen := by
    rw [length_sent, length_encode]
  rw [readAt_headLen (by omega)] at hbytes
  obtain rfl := Option.some.inj hbytes
  unfold HeadFits headLen
  rw [hheadLen, hlength]
  omega

theorem staysInside_sent (lib : JsonLibrary) (hlen : cmd.encode.length + cmd.bodyLen < 2 ^ 31) :
    StaysInside lib cmd.sent := by
  have hsent := length_sent cmd
  have hlength := length_encode cmd
  apply (headFits_sent hlen).staysInside
  · omega
  · omega

end Decode

end Protocol.RemotingCommand
end RocketMQ
