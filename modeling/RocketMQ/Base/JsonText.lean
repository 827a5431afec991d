import Mathlib.Data.List.TakeWhile
import RocketMQ.Base.Json

/-!
# Texts that are written as they are

General library: a value that is written with its strings as they are is read back from its
text exactly when its strings are plain. Reading a plain text undoes the writing. Conversely
reading never takes fewer bytes than writing puts, and an escape takes more, so a text that is
read back to what it was written for holds no escape and no quote inside a string.
-/

namespace RocketMQ.Base.Json

/-! ### Reading takes as many bytes as writing puts -/

/-- Reading from `t` to `r` takes at least `size` bytes, and takes just as many only if the
atoms are plain. -/
def Takes (size : Nat) (atoms : List Atom) (t r : List UInt8) : Prop :=
  size + r.length ≤ t.length ∧ (size + r.length = t.length → Plain atoms)

section Takes

variable {size size' n fuel : Nat} {atoms atoms' : List Atom} {t t' r s : List UInt8} {c : UInt8}

theorem plain_nil : Plain [] := nofun

theorem plain_append : Plain (atoms ++ atoms') ↔ Plain atoms ∧ Plain atoms' := by
  simp only [Plain, List.mem_append, or_imp, forall_and]

theorem plain_string_cons : Plain (.string s :: atoms) ↔ PlainString s ∧ Plain atoms := by
  constructor
  · exact fun h ↦ ⟨h s List.mem_cons_self, fun s' hs ↦ h s' (List.mem_cons_of_mem _ hs)⟩
  · rintro ⟨hs, h⟩ s' (_ | ⟨_, hs'⟩)
    · exact hs
    · exact h s' hs'

theorem elementAtoms_ints (ns : List Int) : elementAtoms (ns.map .int) = [] := by
  induction ns with
  | nil => rfl
  | cons n ns ih => rw [List.map_cons, elementAtoms, ih, atoms, List.nil_append]

theorem elementAtoms_strings (ss : List (List UInt8)) :
    elementAtoms (ss.map .string) = ss.map .string := by
  induction ss with
  | nil => rfl
  | cons s ss ih =>
    rw [List.map_cons, elementAtoms, ih, atoms, List.map_cons, List.singleton_append]

theorem plain_strings_iff (ss : List (List UInt8)) :
    Plain (ss.map .string) ↔ ∀ s ∈ ss, PlainString s := by
  simp [Plain]

theorem plain_elements_iff (vs : List Json) :
    Plain (elementAtoms vs) ↔ ∀ v ∈ vs, Plain v.atoms := by
  induction vs with
  | nil => simp [elementAtoms, plain_nil]
  | cons v vs ih => rw [elementAtoms, plain_append, ih, List.forall_mem_cons]

theorem memberAtoms_append (ms ms' : List (List UInt8 × Json)) :
    memberAtoms (ms ++ ms') = memberAtoms ms ++ memberAtoms ms' := by
  induction ms with
  | nil => rfl
  | cons m ms ih =>
    simp only [List.cons_append, memberAtoms, ih, List.append_assoc]

/-- One step of reading after another. -/
theorem Takes.trans (h : Takes size atoms t t') (h' : Takes size' atoms' t' r) :
    Takes (size + size') (atoms ++ atoms') t r := by
  obtain ⟨hle, heq⟩ := h
  obtain ⟨hle', heq'⟩ := h'
  exact ⟨by omega, fun hsize ↦ plain_append.mpr ⟨heq (by omega), heq' (by omega)⟩⟩

theorem Takes.congr (h : Takes size atoms t r) (hsize : size' = size) (hatoms : atoms' = atoms) :
    Takes size' atoms' t r := by
  rw [hsize, hatoms]
  exact h

theorem length_dropWhile_le (p : UInt8 → Bool) (t : List UInt8) :
    (t.dropWhile p).length ≤ t.length :=
  (List.dropWhile_suffix p).length_le

/-- Skipping whitespace first takes no less. -/
theorem Takes.skip (h : Takes size atoms (t.dropWhile isSpace) r) : Takes size atoms t r := by
  have hle := length_dropWhile_le isSpace t
  obtain ⟨hsize, heq⟩ := h
  exact ⟨by omega, fun h ↦ heq (by omega)⟩

theorem takes_expect (h : expect c t = some r) : Takes 1 [] t r := by
  have hle := length_dropWhile_le isSpace t
  rw [expect] at h
  split at h
  next => cases h
  next b t' hskip =>
    split_ifs at h
    obtain rfl := Option.some.inj h
    rw [hskip, List.length_cons] at hle
    exact ⟨by omega, fun _ ↦ plain_nil⟩

theorem length_utf8 : (utf8 n).length ≤ 4 ∧ (n < 0x10000 → (utf8 n).length ≤ 3) := by
  rw [utf8]
  split_ifs <;> simp_all

theorem hex4_lt {a b c d : UInt8} (h : hex4 a b c d = some n) : n < 0x10000 := by
  have hdigit : ∀ {x : UInt8} {m : Nat}, hexDigit x = some m → m < 16 := by
    intro x m hx
    simp only [hexDigit, isDigit, Bool.and_eq_true, decide_eq_true_eq, UInt8.le_iff_toNat_le] at hx
    split_ifs at hx with h₁ h₂ h₃ <;>
    · have hm := Option.some.inj hx
      simp only [UInt8.reduceToNat] at *
      omega
  simp only [hex4, Option.bind_eq_bind, Option.bind_eq_some_iff] at h
  obtain ⟨a', ha, b', hb, c', hc, d', hd, hn⟩ := h
  have hn := Option.some.inj hn
  have := hdigit ha
  have := hdigit hb
  have := hdigit hc
  have := hdigit hd
  omega

theorem length_readLowSurrogate (h : readLowSurrogate n t = some (s, r)) :
    s.length + r.length ≤ t.length := by
  unfold readLowSurrogate at h
  split at h
  next u v a b c d t' =>
    simp only [Option.bind_eq_bind, Option.bind_eq_some_iff] at h
    obtain ⟨low, -, h⟩ := h
    split_ifs at h
    obtain ⟨rfl, rfl⟩ := Prod.mk.inj (Option.some.inj h)
    have hlength := (length_utf8 (n := 0x10000 + (n - 0xd800) * 0x400 + (low - 0xdc00))).1
    simp only [List.length_cons]
    omega
  next => cases h

theorem length_readUnicode (h : readUnicode t = some (s, r)) : s.length + r.length ≤ t.length := by
  unfold readUnicode at h
  split at h
  next a b c d t' =>
    simp only [Option.bind_eq_bind, Option.bind_eq_some_iff] at h
    obtain ⟨n, hn, h⟩ := h
    simp only [List.length_cons]
    split_ifs at h
    · obtain ⟨rfl, rfl⟩ := Prod.mk.inj (Option.some.inj h)
      have hlength := length_utf8.2 (hex4_lt hn)
      omega
    · have hlength := length_readLowSurrogate h
      omega
  next => cases h

/-- An escape takes its backslash more than it puts. -/
theorem length_readEscape (h : readEscape t = some (s, r)) : s.length + r.length ≤ t.length := by
  cases t with
  | nil => cases h
  | cons e t =>
    rw [readEscape] at h
    split_ifs at h
    · have hlength := length_readUnicode h
      rw [List.length_cons]
      omega
    · obtain ⟨b, -, hb⟩ := Option.map_eq_some_iff.mp h
      obtain ⟨rfl, rfl⟩ := Prod.mk.inj hb
      simp [Nat.add_comm]

theorem takes_readChars (h : readChars fuel t = some (s, r)) :
    s.length + 1 + r.length ≤ t.length ∧ (s.length + 1 + r.length = t.length → PlainString s) := by
  induction fuel generalizing t s r with
  | zero => cases h
  | succ fuel ih =>
    cases t with
    | nil => cases h
    | cons c t =>
      simp only [readChars, Option.bind_eq_bind] at h
      split_ifs at h with hquote hbackslash hcontrol
      · obtain ⟨rfl, rfl⟩ := Prod.mk.inj (Option.some.inj h)
        exact ⟨by simp [Nat.add_comm], fun _ ↦ nofun⟩
      · -- an escape takes one byte more, so the equation cannot hold
        obtain ⟨⟨s₁, t₁⟩, hescape, h⟩ := Option.bind_eq_some_iff.mp h
        obtain ⟨⟨s₂, t₂⟩, hchars, h⟩ := Option.bind_eq_some_iff.mp h
        simp only [Option.some.injEq, Prod.mk.injEq] at h
        obtain ⟨rfl, rfl⟩ := h
        have hlength := length_readEscape hescape
        have hrest : s₂.length + 1 + t₂.length ≤ t₁.length := (ih hchars).1
        rw [List.length_append, List.length_cons]
        exact ⟨by omega, fun heq ↦ by omega⟩
      · obtain ⟨⟨s₁, t₁⟩, hchars, h⟩ := Option.bind_eq_some_iff.mp h
        simp only [Option.some.injEq, Prod.mk.injEq] at h
        obtain ⟨rfl, rfl⟩ := h
        obtain ⟨hle, heq⟩ := ih hchars
        rw [List.length_cons, List.length_cons]
        refine ⟨by omega, fun hsize c' hmem ↦ ?_⟩
        rcases List.mem_cons.mp hmem with rfl | hmem
        · exact ⟨hquote, hbackslash, UInt8.not_lt.mp hcontrol⟩
        · exact heq (by omega) c' hmem

theorem takes_readString (h : readString t = some (s, r)) :
    Takes (s.length + 1) [.string s] t r := by
  obtain ⟨hle, heq⟩ := takes_readChars h
  exact ⟨hle, fun hsize ↦ plain_string_cons.mpr ⟨heq hsize, plain_nil⟩⟩

theorem length_skipDigits (h : skipDigits t = some r) : r.length ≤ t.length := by
  rw [skipDigits] at h
  split_ifs at h
  rw [← Option.some.inj h]
  exact length_dropWhile_le isDigit t

theorem length_readFraction (h : readFraction t = some r) : r.length ≤ t.length := by
  cases t with
  | nil =>
    rw [← Option.some.inj h]
  | cons c t =>
    rw [readFraction] at h
    split_ifs at h
    · have hlength := length_skipDigits h
      rw [List.length_cons]
      omega
    · rw [← Option.some.inj h]

theorem length_readExponent (h : readExponent t = some r) : r.length ≤ t.length := by
  cases t with
  | nil =>
    rw [← Option.some.inj h]
  | cons c t =>
    rw [readExponent] at h
    split_ifs at h
    · have hlength := length_skipDigits h
      have hsign : (skipSign t).length ≤ t.length := by
        cases t with
        | nil => exact Nat.le_refl _
        | cons d t =>
          rw [skipSign]
          split_ifs
          · exact Nat.le_succ _
          · exact Nat.le_refl _
      rw [List.length_cons]
      omega
    · rw [← Option.some.inj h]

theorem readUnsigned_eq_some {ds : List UInt8} (h : readUnsigned t = some (ds, r)) :
    ds ≠ [] ∧ (∀ b ∈ ds, isDigit b) ∧ ds.length + r.length = t.length := by
  simp only [readUnsigned] at h
  split_ifs at h with hbad
  obtain ⟨rfl, rfl⟩ := Prod.mk.inj (Option.some.inj h)
  refine ⟨fun hnil ↦ hbad (.inl hnil), fun b hb ↦ List.mem_takeWhile_imp hb, ?_⟩
  rw [← List.length_append, List.takeWhile_append_dropWhile]

theorem takes_readNumber {v : Json} (h : readNumber t = some (v, r)) :
    Takes (write v).length v.atoms t r := by
  simp only [readNumber, Option.bind_eq_bind, Option.bind_eq_some_iff] at h
  obtain ⟨⟨ds, t'⟩, hunsigned, t₁, hfraction, t₂, hexponent, h⟩ := h
  obtain ⟨hne, hdigits, hlength⟩ := readUnsigned_eq_some hunsigned
  have hfewer := length_natDigits_digitsValue_le hne hdigits
  have hint := length_intDigits_le (digitsValue ds)
  have hrest : t₂.length ≤ t'.length :=
    Nat.le_trans (length_readExponent hexponent) (length_readFraction hfraction)
  have hsign : (if t.head? = some 45 then t.tail else t).length +
      (if t.head? = some 45 then 1 else 0) = t.length := by
    cases t with
    | nil => rfl
    | cons c t =>
      split_ifs
      · rfl
      · rfl
  simp only at h hlength
  split_ifs at h hsign hlength with hsame hnegative
  · obtain ⟨rfl, rfl⟩ := Prod.mk.inj (Option.some.inj h)
    rw [write]
    exact ⟨by omega, fun _ ↦ plain_nil⟩
  · obtain ⟨rfl, rfl⟩ := Prod.mk.inj (Option.some.inj h)
    rw [write]
    exact ⟨by omega, fun _ ↦ plain_nil⟩
  all_goals
    obtain ⟨rfl, rfl⟩ := Prod.mk.inj (Option.some.inj h)
    rw [write, List.length_take]
    exact ⟨by omega, fun _ s hs ↦ by simp [atoms] at hs⟩

theorem takes_readLiteral {v : Json} (h : readLiteral t = some (v, r)) :
    Takes (write v).length v.atoms t r := by
  rw [readLiteral] at h
  have hpre : ∀ {name : List UInt8}, name.isPrefixOf t = true →
      name.length + (t.drop name.length).length ≤ t.length := by
    intro name hname
    have hle := (List.isPrefixOf_iff_prefix.mp hname).length_le
    rw [List.length_drop]
    omega
  split_ifs at h with hnull htrue hfalse
  · obtain ⟨rfl, rfl⟩ := Prod.mk.inj (Option.some.inj h)
    exact ⟨hpre hnull, fun _ ↦ plain_nil⟩
  · obtain ⟨rfl, rfl⟩ := Prod.mk.inj (Option.some.inj h)
    exact ⟨hpre htrue, fun _ ↦ plain_nil⟩
  · obtain ⟨rfl, rfl⟩ := Prod.mk.inj (Option.some.inj h)
    exact ⟨hpre hfalse, fun _ ↦ plain_nil⟩
  · exact takes_readNumber h

/-- Whatever this fuel reads, reading took as many bytes as writing puts. -/
structure TakesWithin (fuel : Nat) : Prop where
  value (t : List UInt8) (v : Json) (r : List UInt8) (hread : readValue fuel t = some (v, r)) :
    Takes (write v).length v.atoms t r
  elements (t : List UInt8) (vs : List Json) (r : List UInt8)
    (hread : readElements fuel t = some (vs, r)) :
    Takes (writeElements vs).length (elementAtoms vs) t r
  member (t k : List UInt8) (v : Json) (r : List UInt8)
    (hread : readMember fuel t = some ((k, v), r)) :
    Takes ((quoted k).length + 1 + (write v).length) (.string k :: v.atoms) t r
  members (t : List UInt8) (ms : List (List UInt8 × Json)) (r : List UInt8)
    (hread : readMembers fuel t = some (ms, r)) :
    Takes (writeMembers ms).length (memberAtoms ms) t r

theorem TakesWithin.value_succ (h : TakesWithin fuel) {v : Json}
    (hread : readValue (fuel + 1) t = some (v, r)) : Takes (write v).length v.atoms t r := by
  rw [readValue] at hread
  split at hread
  next t₁ hopen =>
    split at hread
    next t₂ hclose =>
      obtain ⟨rfl, rfl⟩ := Prod.mk.inj (Option.some.inj hread)
      exact (takes_expect hopen).trans (takes_expect hclose)
    next =>
      simp only [Option.bind_eq_bind, Option.bind_eq_some_iff] at hread
      obtain ⟨⟨⟨k, v⟩, t₂⟩, hfirst, ⟨ms, t₃⟩, hrest, hread⟩ := hread
      obtain ⟨rfl, rfl⟩ := Prod.mk.inj (Option.some.inj hread)
      refine (((takes_expect hopen).trans (h.member _ _ _ _ hfirst)).trans
        (h.members _ _ _ hrest)).congr ?_ rfl
      simp only [write, quoted, List.length_cons, List.length_append, List.length_nil]
      omega
  next =>
    split at hread
    next t₁ hopen =>
      split at hread
      next t₂ hclose =>
        obtain ⟨rfl, rfl⟩ := Prod.mk.inj (Option.some.inj hread)
        exact (takes_expect hopen).trans (takes_expect hclose)
      next =>
        simp only [Option.bind_eq_bind, Option.bind_eq_some_iff] at hread
        obtain ⟨⟨v, t₂⟩, hfirst, ⟨vs, t₃⟩, hrest, hread⟩ := hread
        obtain ⟨rfl, rfl⟩ := Prod.mk.inj (Option.some.inj hread)
        refine (((takes_expect hopen).trans (h.value _ _ _ hfirst)).trans
          (h.elements _ _ _ hrest)).congr ?_ rfl
        simp only [write, List.length_cons, List.length_append]
        omega
    next =>
      split at hread
      next t₁ hopen =>
        simp only [Option.bind_eq_bind, Option.bind_eq_some_iff] at hread
        obtain ⟨⟨s, t₂⟩, hstring, hread⟩ := hread
        obtain ⟨rfl, rfl⟩ := Prod.mk.inj (Option.some.inj hread)
        refine ((takes_expect hopen).trans (takes_readString hstring)).congr ?_ rfl
        simp only [write, quoted, List.length_cons, List.length_append, List.length_nil]
        omega
      next => exact (takes_readLiteral hread).skip

theorem TakesWithin.elements_succ (h : TakesWithin fuel) {vs : List Json}
    (hread : readElements (fuel + 1) t = some (vs, r)) :
    Takes (writeElements vs).length (elementAtoms vs) t r := by
  rw [readElements] at hread
  split at hread
  next t₁ hcomma =>
    simp only [Option.bind_eq_bind, Option.bind_eq_some_iff] at hread
    obtain ⟨⟨v, t₂⟩, hfirst, ⟨vs, t₃⟩, hrest, hread⟩ := hread
    obtain ⟨rfl, rfl⟩ := Prod.mk.inj (Option.some.inj hread)
    refine (((takes_expect hcomma).trans (h.value _ _ _ hfirst)).trans
      (h.elements _ _ _ hrest)).congr ?_ rfl
    simp only [writeElements, List.length_cons, List.length_append]
    omega
  next =>
    obtain ⟨t₁, hclose, hread⟩ := Option.map_eq_some_iff.mp hread
    obtain ⟨rfl, rfl⟩ := Prod.mk.inj hread
    exact takes_expect hclose

theorem TakesWithin.member_succ (h : TakesWithin fuel) {k : List UInt8} {v : Json}
    (hread : readMember (fuel + 1) t = some ((k, v), r)) :
    Takes ((quoted k).length + 1 + (write v).length) (.string k :: v.atoms) t r := by
  simp only [readMember, Option.bind_eq_bind, Option.bind_eq_some_iff] at hread
  obtain ⟨t₁, hquote, ⟨s, t₂⟩, hname, t₃, hcolon, ⟨v, t₄⟩, hfirst, hread⟩ := hread
  simp only [Option.some.injEq, Prod.mk.injEq] at hread
  obtain ⟨⟨rfl, rfl⟩, rfl⟩ := hread
  refine ((((takes_expect hquote).trans (takes_readString hname)).trans
    (takes_expect hcolon)).trans (h.value _ _ _ hfirst)).congr ?_ rfl
  simp only [quoted, List.length_cons, List.length_append, List.length_nil]
  omega

theorem TakesWithin.members_succ (h : TakesWithin fuel) {ms : List (List UInt8 × Json)}
    (hread : readMembers (fuel + 1) t = some (ms, r)) :
    Takes (writeMembers ms).length (memberAtoms ms) t r := by
  rw [readMembers] at hread
  split at hread
  next t₁ hcomma =>
    simp only [Option.bind_eq_bind, Option.bind_eq_some_iff] at hread
    obtain ⟨⟨⟨k, v⟩, t₂⟩, hfirst, ⟨ms, t₃⟩, hrest, hread⟩ := hread
    obtain ⟨rfl, rfl⟩ := Prod.mk.inj (Option.some.inj hread)
    refine (((takes_expect hcomma).trans (h.member _ _ _ _ hfirst)).trans
      (h.members _ _ _ hrest)).congr ?_ rfl
    simp only [writeMembers, quoted, List.length_cons, List.length_append, List.length_nil]
    omega
  next =>
    obtain ⟨t₁, hclose, hread⟩ := Option.map_eq_some_iff.mp hread
    obtain ⟨rfl, rfl⟩ := Prod.mk.inj hread
    exact takes_expect hclose

theorem takesWithin (fuel : Nat) : TakesWithin fuel := by
  induction fuel with
  | zero => exact ⟨nofun, nofun, nofun, nofun⟩
  | succ fuel ih =>
    exact ⟨fun _ _ _ ↦ ih.value_succ, fun _ _ _ ↦ ih.elements_succ, fun _ _ _ _ ↦ ih.member_succ,
      fun _ _ _ ↦ ih.members_succ⟩

/-- A value that is read back from its text has plain strings. -/
theorem plain_of_read_write {v : Json} (h : read (write v) = some v) : Plain v.atoms := by
  rw [read] at h
  split at h
  next v' r hread =>
    split_ifs at h
    obtain rfl := Option.some.inj h
    obtain ⟨hle, heq⟩ := (takesWithin _).value _ _ _ hread
    exact heq (by omega)
  next => cases h

end Takes

/-! ### Reading what was written -/

section Written

variable {n : Int} {fuel : Nat} {t r s : List UInt8} {b c : UInt8}

theorem expect_cons (hspace : isSpace c = false) : expect c (c :: t) = some t := by
  rw [expect, List.dropWhile_cons_of_neg (by rw [hspace]; decide)]
  simp only [if_true]

theorem expect_of_ne (hspace : isSpace b = false) (hne : b ≠ c) : expect c (b :: t) = none := by
  rw [expect, List.dropWhile_cons_of_neg (by rw [hspace]; decide)]
  simp only [if_neg hne]

theorem readChars_append (hplain : PlainString s) (hfuel : s.length < fuel) :
    readChars fuel (s ++ quote :: r) = some (s, r) := by
  induction s generalizing fuel with
  | nil =>
    obtain ⟨fuel, rfl⟩ := Nat.exists_eq_add_of_lt hfuel
    rfl
  | cons c s ih =>
    cases fuel with
    | zero => cases hfuel
    | succ fuel =>
      obtain ⟨hquote, hbackslash, hcontrol⟩ := hplain c List.mem_cons_self
      have hrest := ih (fun c' hmem ↦ hplain c' (List.mem_cons_of_mem _ hmem))
        (Nat.lt_of_succ_lt_succ hfuel)
      rw [List.cons_append, readChars, if_neg hquote, if_neg hbackslash,
        if_neg (UInt8.not_lt.mpr hcontrol), hrest]
      rfl

theorem readString_append (hplain : PlainString s) :
    readString (s ++ quote :: r) = some (s, r) :=
  readChars_append hplain (by rw [List.length_append]; omega)

/-- A text that does not go on with a number. -/
def NumberEnds (r : List UInt8) : Prop :=
  ∀ c ∈ r.head?, isDigit c = false ∧ c ≠ 46 ∧ c ≠ 101 ∧ c ≠ 69

theorem takeWhile_natDigits (m : Nat) (hends : NumberEnds r) :
    (natDigits m ++ r).takeWhile isDigit = natDigits m ∧
      (natDigits m ++ r).dropWhile isDigit = r := by
  rw [List.takeWhile_append_of_pos fun b hb ↦ isDigit_of_mem_natDigits hb,
    List.dropWhile_append_of_pos fun b hb ↦ isDigit_of_mem_natDigits hb]
  cases r with
  | nil => exact ⟨List.append_nil _, rfl⟩
  | cons c r =>
    have hc : ¬ isDigit c = true := by rw [(hends c rfl).1]; decide
    rw [List.takeWhile_cons_of_neg hc, List.dropWhile_cons_of_neg hc]
    exact ⟨List.append_nil _, rfl⟩

theorem readUnsigned_append (m : Nat) (hends : NumberEnds r) :
    readUnsigned (natDigits m ++ r) = some (natDigits m, r) := by
  obtain ⟨htake, hdrop⟩ := takeWhile_natDigits m hends
  rw [readUnsigned]
  simp only [htake, hdrop]
  apply if_neg
  rintro (hnil | ⟨hzero, hmore⟩)
  · exact natDigits_ne_nil m hnil
  · cases hdigits : natDigits m with
    | nil => exact natDigits_ne_nil m hdigits
    | cons c ds =>
      rw [hdigits] at hzero hmore
      obtain rfl := Option.some.inj hzero
      exact hmore (by rw [natDigits_eq_of_zero hdigits])

theorem readExponent_of_ends (hends : NumberEnds r) :
    readFraction r = some r ∧ readExponent r = some r := by
  cases r with
  | nil => exact ⟨rfl, rfl⟩
  | cons c r =>
    obtain ⟨-, hpoint, he, hE⟩ := hends c rfl
    rw [readFraction, if_neg hpoint, readExponent, if_neg (not_or.mpr ⟨he, hE⟩)]
    exact ⟨rfl, rfl⟩

/-- An integer starts with a digit or with a sign. -/
theorem intDigits_eq_cons (n : Int) :
    ∃ c ds, intDigits n = c :: ds ∧ (isDigit c = true ∨ c = 45) := by
  cases n with
  | ofNat n =>
    rw [intDigits]
    cases hdigits : natDigits n with
    | nil => exact absurd hdigits (natDigits_ne_nil n)
    | cons c ds =>
      have hmem : c ∈ natDigits n := by
        rw [hdigits]
        exact List.mem_cons_self
      exact ⟨c, ds, rfl, .inl (isDigit_of_mem_natDigits hmem)⟩
  | negSucc n => exact ⟨45, _, rfl, .inr rfl⟩

/-- The text of an integer is a plain string, too. -/
theorem plainString_intDigits (n : Int) : PlainString (intDigits n) := by
  have hdigit : ∀ {b : UInt8}, isDigit b = true → b ≠ quote ∧ b ≠ backslash ∧ 32 ≤ b := by
    intro b hb
    refine ⟨?_, ?_, ?_⟩
    · rintro rfl
      exact absurd hb (by decide)
    · rintro rfl
      exact absurd hb (by decide)
    · simp only [isDigit, Bool.and_eq_true, decide_eq_true_eq] at hb
      exact UInt8.le_trans (by decide) hb.1
  intro b hmem
  cases n with
  | ofNat n => exact hdigit (isDigit_of_mem_natDigits hmem)
  | negSucc n =>
    rcases List.mem_cons.mp hmem with rfl | hmem
    · decide
    · exact hdigit (isDigit_of_mem_natDigits hmem)

theorem readNumber_append (n : Int) (hends : NumberEnds r) :
    readNumber (intDigits n ++ r) = some (.int n, r) := by
  obtain ⟨hfraction, hexponent⟩ := readExponent_of_ends hends
  cases n with
  | ofNat n =>
    obtain ⟨c, ds, hdigits, -⟩ := intDigits_eq_cons (Int.ofNat n)
    have hhead : (intDigits (Int.ofNat n) ++ r).head? ≠ some 45 := by
      rw [hdigits, List.cons_append, List.head?_cons]
      rintro ⟨⟩
      have hdigit := isDigit_of_mem_natDigits (n := n) (b := 45)
        (by change (45 : UInt8) ∈ intDigits (Int.ofNat n); rw [hdigits]; exact List.mem_cons_self)
      exact absurd hdigit (by decide)
    simp only [readNumber, if_neg hhead]
    rw [intDigits, readUnsigned_append n hends]
    simp [hfraction, hexponent]
  | negSucc n =>
    simp only [readNumber, intDigits, List.cons_append, List.head?_cons, if_true, List.tail_cons]
    rw [readUnsigned_append (n + 1) hends]
    simp [hfraction, hexponent, Int.negSucc_eq]

/-- A text that starts like a number is read as one. -/
theorem readLiteral_of_number (hc : isDigit c = true ∨ c = 45) :
    readLiteral (c :: t) = readNumber (c :: t) := by
  have hne : ∀ name : UInt8, isDigit name = false → name ≠ 45 → (name == c) = false := by
    rintro name hname hminus
    rw [beq_eq_false_iff_ne]
    rintro rfl
    rcases hc with hc | hc
    · rw [hname] at hc
      cases hc
    · exact hminus hc
  rw [readLiteral]
  simp only [List.isPrefixOf, hne 110 (by decide) (by decide), hne 116 (by decide) (by decide),
    hne 102 (by decide) (by decide), Bool.false_and, Bool.false_eq_true, if_false]

/-- The first byte of a value is no whitespace and closes nothing. -/
theorem write_eq_cons {v : Json} (h : Integral v.atoms) :
    ∃ c t, write v = c :: t ∧ isSpace c = false ∧ c ≠ closeBracket := by
  cases v with
  | null => exact ⟨_, _, rfl, by decide, by decide⟩
  | bool b =>
    cases b with
    | false => exact ⟨_, _, rfl, by decide, by decide⟩
    | true => exact ⟨_, _, rfl, by decide, by decide⟩
  | int n =>
    obtain ⟨c, ds, hdigits, hc⟩ := intDigits_eq_cons n
    refine ⟨c, ds, hdigits, ?_, ?_⟩
    · rcases hc with hc | rfl
      · by_contra hspace
        simp only [isSpace, Bool.not_eq_false, Bool.or_eq_true, beq_iff_eq] at hspace
        rcases hspace with ((rfl | rfl) | rfl) | rfl <;> exact absurd hc (by decide)
      · decide
    · rintro rfl
      exact absurd hc (by decide)
  | decimal token => exact absurd List.mem_cons_self (h token)
  | string s => exact ⟨_, _, rfl, by decide, by decide⟩
  | array vs =>
    cases vs with
    | nil => exact ⟨_, _, rfl, by decide, by decide⟩
    | cons v vs => exact ⟨_, _, rfl, by decide, by decide⟩
  | object ms =>
    cases ms with
    | nil => exact ⟨_, _, rfl, by decide, by decide⟩
    | cons m ms => exact ⟨_, _, rfl, by decide, by decide⟩

theorem integral_nil : Integral [] := fun _ ↦ List.not_mem_nil

theorem integral_append {atoms atoms' : List Atom} :
    Integral (atoms ++ atoms') ↔ Integral atoms ∧ Integral atoms' := by
  simp only [Integral, List.mem_append, not_or, forall_and]

theorem integral_string_cons {atoms : List Atom} :
    Integral (.string s :: atoms) ↔ Integral atoms := by
  simp [Integral]

theorem integral_elements {vs : List Json} (h : ∀ v ∈ vs, Integral v.atoms) :
    Integral (elementAtoms vs) := by
  induction vs with
  | nil => exact integral_nil
  | cons v vs ih =>
    rw [List.forall_mem_cons] at h
    rw [elementAtoms, integral_append]
    exact ⟨h.1, ih h.2⟩

theorem numberEnds_cons (hdigit : isDigit c = false) (hpoint : c ≠ 46) (he : c ≠ 101)
    (hE : c ≠ 69) : NumberEnds (c :: t) := by
  rintro c' ⟨⟩
  exact ⟨hdigit, hpoint, he, hE⟩

theorem numberEnds_elements (vs : List Json) (r : List UInt8) :
    NumberEnds (writeElements vs ++ r) := by
  cases vs with
  | nil => exact numberEnds_cons (by decide) (by decide) (by decide) (by decide)
  | cons v vs => exact numberEnds_cons (by decide) (by decide) (by decide) (by decide)

theorem numberEnds_members (ms : List (List UInt8 × Json)) (r : List UInt8) :
    NumberEnds (writeMembers ms ++ r) := by
  cases ms with
  | nil => exact numberEnds_cons (by decide) (by decide) (by decide) (by decide)
  | cons m ms => exact numberEnds_cons (by decide) (by decide) (by decide) (by decide)

/-- A text that starts with no brace, bracket or quote is read as a name or a number. -/
theorem readValue_literal (hspace : isSpace c = false) (hbrace : c ≠ openBrace)
    (hbracket : c ≠ openBracket) (hquote : c ≠ quote) :
    readValue (fuel + 1) (c :: t) = readLiteral (c :: t) := by
  rw [readValue, expect_of_ne hspace hbrace, expect_of_ne hspace hbracket,
    expect_of_ne hspace hquote, List.dropWhile_cons_of_neg (by rw [hspace]; decide)]

theorem readValue_int (n : Int) (hends : NumberEnds r) :
    readValue (fuel + 1) (write (.int n) ++ r) = some (.int n, r) := by
  obtain ⟨c, ds, hdigits, hc⟩ := intDigits_eq_cons n
  obtain ⟨c', t, hwrite, hspace, -⟩ := write_eq_cons (v := .int n) nofun
  rw [write, hdigits] at hwrite
  obtain ⟨rfl, -⟩ := List.cons.inj hwrite
  have hnumber := readNumber_append n hends
  rw [write]
  rw [hdigits, List.cons_append] at hnumber ⊢
  rw [readValue_literal hspace ?_ ?_ ?_, readLiteral_of_number hc, hnumber]
  all_goals
    rintro rfl
    exact absurd hc (by decide)

theorem readValue_string (hs : PlainString s) :
    readValue (fuel + 1) (write (.string s) ++ r) = some (.string s, r) := by
  rw [write, quoted, List.cons_append, List.append_assoc, readValue,
    expect_of_ne (by decide) (by decide), expect_of_ne (by decide) (by decide),
    expect_cons (by decide)]
  simp only [List.cons_append, List.nil_append, readString_append hs, Option.bind_eq_bind,
    Option.bind_some]

/-- This fuel reads back what was written, with plain strings and integers, whatever follows. -/
structure ReadsBack (fuel : Nat) : Prop where
  value (v : Json) (r : List UInt8) (hplain : Plain v.atoms) (hint : Integral v.atoms)
    (hfuel : (write v).length ≤ fuel) (hends : ∀ n, v = .int n → NumberEnds r) :
    readValue fuel (write v ++ r) = some (v, r)
  elements (vs : List Json) (r : List UInt8) (hplain : Plain (elementAtoms vs))
    (hint : Integral (elementAtoms vs)) (hfuel : (writeElements vs).length ≤ fuel) :
    readElements fuel (writeElements vs ++ r) = some (vs, r)
  member (k : List UInt8) (v : Json) (r : List UInt8) (hk : PlainString k)
    (hplain : Plain v.atoms) (hint : Integral v.atoms)
    (hfuel : (quoted k).length + (write v).length ≤ fuel) (hends : NumberEnds r) :
    readMember fuel (quoted k ++ colon :: (write v ++ r)) = some ((k, v), r)
  members (ms : List (List UInt8 × Json)) (r : List UInt8) (hplain : Plain (memberAtoms ms))
    (hint : Integral (memberAtoms ms)) (hfuel : (writeMembers ms).length ≤ fuel) :
    readMembers fuel (writeMembers ms ++ r) = some (ms, r)

/-- The first element is read, and the rest after it. -/
theorem ReadsBack.elements_cons (h : ReadsBack fuel) {v : Json} {vs : List Json}
    (hplain : Plain (elementAtoms (v :: vs))) (hint : Integral (elementAtoms (v :: vs)))
    (hfuel : (write v).length + (writeElements vs).length ≤ fuel) :
    Integral v.atoms ∧
      readValue fuel (write v ++ (writeElements vs ++ r)) = some (v, writeElements vs ++ r) ∧
      readElements fuel (writeElements vs ++ r) = some (vs, r) := by
  rw [elementAtoms] at hplain hint
  obtain ⟨hv, hvs⟩ := plain_append.mp hplain
  obtain ⟨hiv, hivs⟩ := integral_append.mp hint
  exact ⟨hiv, h.value v (writeElements vs ++ r) hv hiv (by omega)
    fun _ _ ↦ numberEnds_elements vs r, h.elements vs r hvs hivs (by omega)⟩

/-- The first member is read, and the rest after it. -/
theorem ReadsBack.members_cons (h : ReadsBack fuel) {k : List UInt8} {v : Json}
    {ms : List (List UInt8 × Json)} (hplain : Plain (memberAtoms ((k, v) :: ms)))
    (hint : Integral (memberAtoms ((k, v) :: ms)))
    (hfuel : (quoted k).length + (write v).length + (writeMembers ms).length ≤ fuel) :
    readMember fuel (quoted k ++ colon :: (write v ++ (writeMembers ms ++ r))) =
        some ((k, v), writeMembers ms ++ r) ∧
      readMembers fuel (writeMembers ms ++ r) = some (ms, r) := by
  rw [memberAtoms] at hplain hint
  obtain ⟨hk, hplain⟩ := plain_string_cons.mp hplain
  obtain ⟨hv, hms⟩ := plain_append.mp hplain
  obtain ⟨hiv, hims⟩ := integral_append.mp (integral_string_cons.mp hint)
  exact ⟨h.member k v (writeMembers ms ++ r) hk hv hiv (by omega) (numberEnds_members ms r),
    h.members ms r hms hims (by omega)⟩

theorem ReadsBack.array_succ (h : ReadsBack fuel) (vs : List Json)
    (hplain : Plain (elementAtoms vs)) (hint : Integral (elementAtoms vs))
    (hfuel : (write (.array vs)).length ≤ fuel + 1) :
    readValue (fuel + 1) (write (.array vs) ++ r) = some (.array vs, r) := by
  cases vs with
  | nil =>
    rw [write, List.cons_append, readValue, expect_of_ne (by decide) (by decide),
      expect_cons (by decide)]
    simp only [List.cons_append, List.nil_append,
      expect_cons (c := closeBracket) (t := r) rfl]
  | cons v vs =>
    rw [write, List.length_cons, List.length_append] at hfuel
    obtain ⟨hiv, hfirst, hrest⟩ := h.elements_cons (r := r) hplain hint (by omega)
    obtain ⟨c, t, hwrite, hspace, hclose⟩ := write_eq_cons hiv
    rw [write, List.cons_append, List.append_assoc, readValue,
      expect_of_ne (by decide) (by decide), expect_cons (by decide)]
    have hnonempty : expect closeBracket (write v ++ (writeElements vs ++ r)) = none := by
      rw [hwrite]
      exact expect_of_ne hspace hclose
    simp only [hnonempty, hfirst, hrest, Option.bind_eq_bind, Option.bind_some]

theorem ReadsBack.object_succ (h : ReadsBack fuel) (ms : List (List UInt8 × Json))
    (hplain : Plain (memberAtoms ms)) (hint : Integral (memberAtoms ms))
    (hfuel : (write (.object ms)).length ≤ fuel + 1) :
    readValue (fuel + 1) (write (.object ms) ++ r) = some (.object ms, r) := by
  cases ms with
  | nil =>
    rw [write, List.cons_append, readValue, expect_cons (by decide)]
    simp only [List.cons_append, List.nil_append,
      expect_cons (c := closeBrace) (t := r) rfl]
  | cons m ms =>
    obtain ⟨k, v⟩ := m
    rw [write, List.length_cons, List.length_append, List.length_cons,
      List.length_append] at hfuel
    obtain ⟨hfirst, hrest⟩ := h.members_cons (r := r) hplain hint (by omega)
    have hnonempty : expect closeBrace
        (quoted k ++ colon :: (write v ++ (writeMembers ms ++ r))) = none :=
      expect_of_ne (by decide) (by decide)
    rw [write, List.cons_append, List.append_assoc, List.cons_append, List.append_assoc,
      readValue, expect_cons (by decide)]
    simp only [hnonempty, hfirst, hrest, Option.bind_eq_bind, Option.bind_some]

theorem ReadsBack.value_succ (h : ReadsBack fuel) (v : Json) (hplain : Plain v.atoms)
    (hint : Integral v.atoms) (hfuel : (write v).length ≤ fuel + 1)
    (hends : ∀ n, v = .int n → NumberEnds r) :
    readValue (fuel + 1) (write v ++ r) = some (v, r) := by
  cases v with
  | null =>
    exact readValue_literal (by decide) (by decide) (by decide) (by decide)
  | bool b =>
    cases b with
    | false => exact readValue_literal (by decide) (by decide) (by decide) (by decide)
    | true => exact readValue_literal (by decide) (by decide) (by decide) (by decide)
  | int n => exact readValue_int n (hends n rfl)
  | decimal token => exact absurd List.mem_cons_self (hint token)
  | string s => exact readValue_string (plain_string_cons.mp hplain).1
  | array vs => exact h.array_succ vs hplain hint hfuel
  | object ms => exact h.object_succ ms hplain hint hfuel

theorem ReadsBack.elements_succ (h : ReadsBack fuel) (vs : List Json)
    (hplain : Plain (elementAtoms vs)) (hint : Integral (elementAtoms vs))
    (hfuel : (writeElements vs).length ≤ fuel + 1) :
    readElements (fuel + 1) (writeElements vs ++ r) = some (vs, r) := by
  cases vs with
  | nil =>
    rw [writeElements, List.cons_append, readElements, expect_of_ne (by decide) (by decide),
      expect_cons (by decide)]
    rfl
  | cons v vs =>
    rw [writeElements, List.length_cons, List.length_append] at hfuel
    obtain ⟨-, hfirst, hrest⟩ := h.elements_cons (r := r) hplain hint (by omega)
    rw [writeElements, List.cons_append, List.append_assoc, readElements,
      expect_cons (by decide)]
    simp only [hfirst, hrest, Option.bind_eq_bind, Option.bind_some]

theorem ReadsBack.member_succ (h : ReadsBack fuel) {k : List UInt8} {v : Json}
    (hk : PlainString k) (hplain : Plain v.atoms) (hint : Integral v.atoms)
    (hfuel : (quoted k).length + (write v).length ≤ fuel + 1) (hends : NumberEnds r) :
    readMember (fuel + 1) (quoted k ++ colon :: (write v ++ r)) = some ((k, v), r) := by
  have hname : readString (k ++ quote :: (colon :: (write v ++ r))) =
      some (k, colon :: (write v ++ r)) := readString_append hk
  rw [quoted, List.length_cons, List.length_append] at hfuel
  have hfirst := h.value v r hplain hint (by omega) fun _ _ ↦ hends
  rw [quoted, List.cons_append, List.append_assoc, List.cons_append, List.nil_append,
    readMember, expect_cons (by decide)]
  simp only [hname, hfirst, expect_cons (c := colon) (t := write v ++ r) rfl,
    Option.bind_eq_bind, Option.bind_some]

theorem ReadsBack.members_succ (h : ReadsBack fuel) (ms : List (List UInt8 × Json))
    (hplain : Plain (memberAtoms ms)) (hint : Integral (memberAtoms ms))
    (hfuel : (writeMembers ms).length ≤ fuel + 1) :
    readMembers (fuel + 1) (writeMembers ms ++ r) = some (ms, r) := by
  cases ms with
  | nil =>
    rw [writeMembers, List.cons_append, readMembers, expect_of_ne (by decide) (by decide),
      expect_cons (by decide)]
    rfl
  | cons m ms =>
    obtain ⟨k, v⟩ := m
    rw [writeMembers, List.length_cons, List.length_append, List.length_cons,
      List.length_append] at hfuel
    obtain ⟨hfirst, hrest⟩ := h.members_cons (r := r) hplain hint (by omega)
    rw [writeMembers, List.cons_append, List.append_assoc, List.cons_append,
      List.append_assoc, readMembers, expect_cons (by decide)]
    simp only [hfirst, hrest, Option.bind_eq_bind, Option.bind_some]

/-- Fuel for each byte of the text is enough. -/
theorem readsBack (fuel : Nat) : ReadsBack fuel := by
  induction fuel with
  | zero =>
    refine ⟨fun v r hplain hint hfuel _ ↦ ?_, fun vs r _ _ hfuel ↦ ?_, fun k v r _ _ _ hfuel ↦ ?_,
      fun ms r _ _ hfuel ↦ ?_⟩
    · obtain ⟨c, t, hwrite, -⟩ := write_eq_cons hint
      rw [hwrite] at hfuel
      cases hfuel
    · cases vs <;> cases hfuel
    · rw [quoted, List.length_cons] at hfuel
      omega
    · cases ms <;> cases hfuel
  | succ fuel ih =>
    exact ⟨fun v _ ↦ ih.value_succ v, fun vs _ ↦ ih.elements_succ vs,
      fun _ _ _ ↦ ih.member_succ, fun ms _ ↦ ih.members_succ ms⟩

/-- Elements with a comma behind each but the last are an array without its brackets. -/
theorem dropLast_flatMap (v : Json) (vs : List Json) :
    ((v :: vs).flatMap fun v ↦ write v ++ [comma]).dropLast ++ [closeBracket] =
      write v ++ writeElements vs := by
  induction vs generalizing v with
  | nil =>
    rw [List.flatMap_cons, List.flatMap_nil, List.append_nil, List.dropLast_concat]
    rfl
  | cons w vs ih =>
    have hne : ((w :: vs).flatMap fun v ↦ write v ++ [comma]) ≠ [] := by
      rw [List.flatMap_cons]
      simp
    rw [List.flatMap_cons, List.dropLast_append_of_ne_nil hne, List.append_assoc, ih,
      List.append_assoc]
    rfl

theorem write_array (vs : List Json) : write (.array vs) = openBracket ::
    ((vs.flatMap fun v ↦ write v ++ [comma]).dropLast ++ [closeBracket]) := by
  cases vs with
  | nil => rfl
  | cons v vs =>
    rw [dropLast_flatMap]
    rfl

theorem le_of_mem_quoted (hplain : PlainString s) : ∀ b ∈ quoted s, 32 ≤ b := by
  intro b hmem
  rcases List.mem_cons.mp hmem with rfl | hmem
  · decide
  · rcases List.mem_append.mp hmem with hmem | hmem
    · exact (hplain b hmem).2.2
    · rw [List.mem_singleton.mp hmem]
      decide

mutual

/-- A text that was written has no control characters. -/
theorem le_of_mem_write : (v : Json) → Plain v.atoms → Integral v.atoms → ∀ b ∈ write v, 32 ≤ b
  | .null, _, _ => by simp [write]
  | .bool true, _, _ => by simp [write]
  | .bool false, _, _ => by simp [write]
  | .int n, _, _ => fun b hmem ↦ (plainString_intDigits n b hmem).2.2
  | .decimal token, _, hint => absurd List.mem_cons_self (hint token)
  | .string s, hplain, _ => le_of_mem_quoted (plain_string_cons.mp hplain).1
  | .array [], _, _ => by simp [write, openBracket, closeBracket]
  | .array (v :: vs), hplain, hint => by
    have hv := le_of_mem_write v (plain_append.mp hplain).1 (integral_append.mp hint).1
    have hvs := le_of_mem_writeElements vs (plain_append.mp hplain).2 (integral_append.mp hint).2
    rw [write, List.forall_mem_cons, List.forall_mem_append]
    exact ⟨by decide, hv, hvs⟩
  | .object [], _, _ => by simp [write, openBrace, closeBrace]
  | .object ((k, v) :: ms), hplain, hint => by
    have hm := le_of_mem_writeMembers ((k, v) :: ms) hplain hint
    rw [writeMembers, List.forall_mem_cons] at hm
    rw [write, List.forall_mem_cons]
    exact ⟨by decide, hm.2⟩

theorem le_of_mem_writeElements : (vs : List Json) → Plain (elementAtoms vs) →
    Integral (elementAtoms vs) → ∀ b ∈ writeElements vs, 32 ≤ b
  | [], _, _ => by simp [writeElements, closeBracket]
  | v :: vs, hplain, hint => by
    have hv := le_of_mem_write v (plain_append.mp hplain).1 (integral_append.mp hint).1
    have hvs := le_of_mem_writeElements vs (plain_append.mp hplain).2 (integral_append.mp hint).2
    rw [writeElements, List.forall_mem_cons, List.forall_mem_append]
    exact ⟨by decide, hv, hvs⟩

theorem le_of_mem_writeMembers : (ms : List (List UInt8 × Json)) → Plain (memberAtoms ms) →
    Integral (memberAtoms ms) → ∀ b ∈ writeMembers ms, 32 ≤ b
  | [], _, _ => by simp [writeMembers, closeBrace]
  | (k, v) :: ms, hplain, hint => by
    obtain ⟨hk, hplain⟩ := plain_string_cons.mp hplain
    have hint := integral_string_cons.mp hint
    have hv := le_of_mem_write v (plain_append.mp hplain).1 (integral_append.mp hint).1
    have hms := le_of_mem_writeMembers ms (plain_append.mp hplain).2 (integral_append.mp hint).2
    rw [writeMembers, List.forall_mem_cons, List.forall_mem_append, List.forall_mem_cons,
      List.forall_mem_append]
    exact ⟨by decide, le_of_mem_quoted hk, by decide, hv, hms⟩

end

/-- The first value of a text is the one that was written there. -/
theorem readFirst_write {v : Json} (hplain : Plain v.atoms) (hint : Integral v.atoms)
    (hends : ∀ n, v = .int n → NumberEnds r) : readFirst (write v ++ r) = some v := by
  have hread := (readsBack ((write v ++ r).length + 1)).value v r hplain hint
    (by rw [List.length_append]; omega) hends
  rw [readFirst, hread]
  rfl

/-- A value without other numbers than integers is read back from its text exactly when its
strings are plain. -/
theorem read_write_iff {v : Json} (hint : Integral v.atoms) :
    read (write v) = some v ↔ Plain v.atoms := by
  refine ⟨plain_of_read_write, fun hplain ↦ ?_⟩
  have hread := (readsBack ((write v).length + 1)).value v [] hplain hint (Nat.le_succ _)
    fun _ _ ↦ nofun
  rw [List.append_nil] at hread
  rw [read, hread]
  rfl

end Written
end RocketMQ.Base.Json
