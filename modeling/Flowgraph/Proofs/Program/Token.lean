import Flowgraph.Proofs.Text.Line
import Flowgraph.Program.Lexical

/-! Reading texts and numbers one at a time. What is read is a part in front of the text, and numbers and quoted
texts that are written out are read back as far as they go, when a mark stands behind them. -/

namespace Flowgraph.Expression

open Text Decimal

/-! What is read over -/

def Eats (cs tail : List Char) : Prop :=
  ∃ used, cs = used ++ tail ∧ ∀ c ∈ used, c.toNat ≠ 0

section
variable {cs ds tail : List Char} {c : Char}

@[simp] theorem Eats.refl (cs : List Char) : Eats cs cs :=
  ⟨[], rfl, nofun⟩

theorem Eats.trans (h : Eats cs ds) (h' : Eats ds tail) : Eats cs tail := by
  obtain ⟨first, rfl, hfirst⟩ := h
  obtain ⟨second, rfl, hsecond⟩ := h'
  exact ⟨first ++ second, (List.append_assoc ..).symm, List.forall_mem_append.2 ⟨hfirst, hsecond⟩⟩

theorem Eats.cons (hc : c.toNat ≠ 0) (h : Eats cs tail) : Eats (c :: cs) tail := by
  obtain ⟨used, rfl, hused⟩ := h
  exact ⟨c :: used, rfl, List.forall_mem_cons.2 ⟨hc, hused⟩⟩

theorem Eats.length_le (h : Eats cs tail) : tail.length ≤ cs.length := by
  obtain ⟨used, rfl, -⟩ := h
  simp

/-- Whether there is a null character behind what was read is the same as whether there is one at all. -/
theorem Eats.null_iff (h : Eats cs tail) : (∃ d ∈ cs, d.toNat = 0) ↔ ∃ d ∈ tail, d.toNat = 0 := by
  obtain ⟨used, rfl, hused⟩ := h
  constructor
  · rintro ⟨d, hd, hzero⟩
    exact ⟨d, (List.mem_append.1 hd).resolve_left fun hmem => hused d hmem hzero, hzero⟩
  · rintro ⟨d, hd, hzero⟩
    exact ⟨d, List.mem_append_right _ hd, hzero⟩

end

/-! Numbers are parts in front -/

section
variable {cs rest tail : List Char} {c : Char} {l : Literal}

theorem isAsciiDigit_ne_null (h : isAsciiDigit c = true) : c.toNat ≠ 0 := by
  unfold isAsciiDigit at h
  simp only [Bool.and_eq_true, decide_eq_true_eq] at h
  have hlow : '0'.toNat ≤ c.toNat := h.1
  intro hzero
  rw [hzero] at hlow
  exact absurd hlow (by decide)

theorem isRadixDigit_ne_null {radix : Nat} (h : isRadixDigit radix c = true) : c.toNat ≠ 0 := by
  rintro hzero
  obtain rfl : c = Char.ofNat 0 := Char.toNat_inj.1 (hzero.trans (by decide))
  unfold isRadixDigit at h
  rw [show radixValue? (Char.ofNat 0) = none by decide] at h
  cases h

theorem digitGroups_cons {isDigit : Char → Bool} (h : isDigit c = true) : digitGroups isDigit (c :: rest) =
    (c :: (digitGroups isDigit rest).1, (digitGroups isDigit rest).2) := by
  rw [digitGroups.eq_def]
  dsimp only
  rw [if_pos h]

theorem digitGroups_eats {isDigit : Char → Bool} (hdigit : ∀ c, isDigit c = true → c.toNat ≠ 0) (cs : List Char) :
    Eats cs (digitGroups isDigit cs).2 := by
  fun_induction digitGroups isDigit cs with
  | case1 => exact Eats.refl []
  | case2 c rest hc ds tail hrest ih =>
    rw [hrest] at ih
    exact ih.cons (hdigit c hc)
  | case3 d rest hd _ ih => exact ih.cons (by decide)
  | _ => exact Eats.refl _

theorem ended_eq_some {l' : Literal} (h : ended l cs = some (l', tail)) : tail = cs := by
  unfold ended at h
  split_ifs at h
  exact (congrArg Prod.snd (Option.some.inj h)).symm

theorem readRadix_eats {radix : Nat} (h : readRadix radix cs = some (l, tail)) : Eats cs tail := by
  have hgroups : ∀ body, Eats body (digitGroups (isRadixDigit radix) body).2 :=
    digitGroups_eats fun _ h => isRadixDigit_ne_null h
  unfold readRadix at h
  dsimp only at h
  split at h
  · split_ifs at h
    rw [ended_eq_some h]
    refine Eats.trans ?_ (hgroups _)
    split
    · exact (Eats.refl _).cons (by decide)
    · exact Eats.refl _
  · cases h

theorem asciiGroups_eats (cs : List Char) : Eats cs (digitGroups isAsciiDigit cs).2 :=
  digitGroups_eats (fun _ => isAsciiDigit_ne_null) cs

def pointed (whole tail : List Char) : Mantissa :=
  match tail with
  | d :: _ =>
    if isAsciiDigit d then ⟨whole, some (digitGroups isAsciiDigit tail).1, (digitGroups isAsciiDigit tail).2⟩
    else ⟨whole, some [], tail⟩
  | [] => ⟨whole, some [], tail⟩

theorem pointed_eats (whole tail : List Char) : Eats tail (pointed whole tail).rest := by
  unfold pointed
  split
  · split_ifs
    · exact asciiGroups_eats _
    · exact Eats.refl _
  · exact Eats.refl _

theorem readMantissa_eats (hc : isAsciiDigit c = true ∨ c = '.') : Eats rest (readMantissa (c :: rest)).rest := by
  unfold readMantissa
  rcases hc with hc | rfl
  · have hgroups := asciiGroups_eats rest
    rw [digitGroups_cons hc]
    generalize digitGroups isAsciiDigit rest = groups at hgroups
    obtain ⟨ds, tail⟩ := groups
    dsimp only at hgroups ⊢
    split
    · exact hgroups.trans ((pointed_eats _ _).cons (by decide))
    · exact hgroups
  · exact pointed_eats [] rest

theorem readPower_eats {e : Int} (h : readPower cs = some (e, tail)) : Eats cs tail := by
  unfold readPower at h
  split at h
  · split_ifs at h
    cases h
    exact (asciiGroups_eats _).cons (by decide)
  · split_ifs at h
    cases h
    exact (asciiGroups_eats _).cons (by decide)
  · split_ifs at h
    cases h
    exact asciiGroups_eats _
  · cases h

theorem finishNumber_eats {m : Mantissa} {e : Option Int} (h : finishNumber m e cs = some (l, tail)) : Eats cs tail := by
  unfold finishNumber at h
  dsimp only at h
  split at h
  · rw [ended_eq_some h]
    exact (Eats.refl _).cons (by decide)
  · rw [ended_eq_some h]
    exact (Eats.refl _).cons (by decide)
  · split_ifs at h <;> rw [ended_eq_some h] <;> exact Eats.refl _

theorem readDecimalNumber_eats (hc : isAsciiDigit c = true ∨ c = '.')
    (h : readDecimalNumber (c :: rest) = some (l, tail)) : Eats rest tail := by
  have hmantissa : Eats rest (readMantissa (c :: rest)).rest := readMantissa_eats hc
  unfold readDecimalNumber at h
  generalize readMantissa (c :: rest) = m at h hmantissa
  have hpower : ∀ mark more e behind, m.rest = mark :: more → mark.toNat ≠ 0 → readPower more = some (e, behind) →
      Eats rest behind := by
    intro mark more e behind hrest hmark hread
    refine hmantissa.trans ?_
    rw [hrest]
    exact (readPower_eats hread).cons hmark
  dsimp only at h
  split at h
  · next heq =>
    split at h
    · next hread => exact (hpower _ _ _ _ heq (by decide) hread).trans (finishNumber_eats h)
    · exact hmantissa.trans (finishNumber_eats h)
  · next heq =>
    split at h
    · next hread => exact (hpower _ _ _ _ heq (by decide) hread).trans (finishNumber_eats h)
    · exact hmantissa.trans (finishNumber_eats h)
  · exact hmantissa.trans (finishNumber_eats h)

/-- A number begins with its first character and is a part in front. -/
theorem readNumber_eats (hc : isAsciiDigit c = true ∨ c = '.') (h : readNumber (c :: rest) = some (l, tail)) :
    Eats rest tail := by
  have hradix : ∀ radix mark more, c :: rest = '0' :: mark :: more → mark.toNat ≠ 0 →
      readRadix radix more = some (l, tail) → Eats rest tail := by
    intro radix mark more heq hmark h
    rw [(List.cons_eq_cons.1 heq).2]
    exact (readRadix_eats h).cons hmark
  unfold readNumber at h
  split at h
  · next heq => exact hradix _ _ _ heq (by decide) h
  · next heq => exact hradix _ _ _ heq (by decide) h
  · next heq => exact hradix _ _ _ heq (by decide) h
  · next heq => exact hradix _ _ _ heq (by decide) h
  · next heq => exact hradix _ _ _ heq (by decide) h
  · next heq => exact hradix _ _ _ heq (by decide) h
  · exact readDecimalNumber_eats hc h

end

/-! Quoted texts are parts in front -/

section
variable {cs body tail : List Char} {quote : Char}

theorem readShort_eq_some (h : readShort quote cs = some (body, tail)) : cs = body ++ quote :: tail := by
  fun_induction readShort quote cs generalizing body with
  | case1 => cases h
  | case2 c rest ih | case5 c rest _ _ _ ih =>
    obtain ⟨⟨inner, behind⟩, hinner, heq⟩ := Option.map_eq_some_iff.1 h
    cases heq
    rw [ih hinner]
    rfl
  | case3 =>
    cases h
    rfl
  | case4 => cases h

theorem readLong_eq_some (h : readLong quote cs = some (body, tail)) : cs = body ++ quote :: quote :: quote :: tail := by
  fun_induction readLong quote cs generalizing body with
  | case1 => cases h
  | case2 c rest ih | case4 a b c rest _ _ ih =>
    obtain ⟨⟨inner, behind⟩, hinner, heq⟩ := Option.map_eq_some_iff.1 h
    cases heq
    rw [ih hinner]
    rfl
  | case3 a b c rest _ hclosed =>
    cases h
    simp only [Bool.and_eq_true, decide_eq_true_eq] at hclosed
    obtain ⟨⟨rfl, rfl⟩, rfl⟩ := hclosed
    rfl
  | case5 => cases h

/-- A text stands between quotes in front. -/
theorem readBody_eq_some (h : readBody quote cs = some (body, tail)) :
    ∃ opening closing, cs = opening ++ body ++ closing ++ tail ∧ ∀ c ∈ opening ++ closing, c = quote := by
  unfold readBody at h
  split at h
  · next a b rest =>
    split_ifs at h with hlong
    · simp only [Bool.and_eq_true, decide_eq_true_eq] at hlong
      obtain ⟨rfl, rfl⟩ := hlong
      exact ⟨[b, b], [b, b, b], by simp [readLong_eq_some h], by simp⟩
    · exact ⟨[], [quote], by simp [readShort_eq_some h], by simp⟩
  · exact ⟨[], [quote], by simp [readShort_eq_some h], by simp⟩

end

/-! Writing numbers -/

theorem mem_toDigits {base n : Nat} {c : Char} (hbase : 1 < base) (h : c ∈ Nat.toDigits base n) :
    ∃ d < base, c = d.digitChar := by
  induction n using Nat.strongRecOn with
  | _ n ih =>
    rw [Nat.toDigits_eq_if hbase] at h
    split_ifs at h with hn
    · exact ⟨n, hn, List.mem_singleton.1 h⟩
    · rcases List.mem_append.1 h with h | h
      · exact ih _ (Nat.div_lt_self (by omega) hbase) h
      · exact ⟨n % base, Nat.mod_lt n (by omega), List.mem_singleton.1 h⟩

def isSeal (c : Char) : Bool :=
  ['\n', ' ', '(', ')', '[', ']', '\x7b', '\x7d', ',', ':'].contains c

def Sealed (cs : List Char) : Prop :=
  ∃ c rest, cs = c :: rest ∧ isSeal c = true

theorem sealed_cons {c : Char} {rest : List Char} (h : isSeal c = true) : Sealed (c :: rest) :=
  ⟨c, rest, rfl, h⟩

/-- Neither a name nor a number goes on with a mark. -/
theorem not_continues_of_isSeal {c : Char} (h : isSeal c = true) :
    mayContinueName c = false ∧ isAsciiDigit c = false ∧ c ≠ '.' ∧ c ≠ '\'' ∧ c ≠ '"' := by
  have hc : c ∈ ['\n', ' ', '(', ')', '[', ']', '\x7b', '\x7d', ',', ':'] := by simpa [isSeal] using h
  simp only [List.mem_cons, List.not_mem_nil, or_false] at hc
  rcases hc with rfl | rfl | rfl | rfl | rfl | rfl | rfl | rfl | rfl | rfl <;> decide

section
variable {ds fs es cs rest : List Char} {c : Char}

def AllDigits (ds : List Char) : Prop :=
  ∀ c ∈ ds, isAsciiDigit c = true

instance (ds : List Char) : Decidable (AllDigits ds) :=
  List.decidableBAll _ ds

def EndsDigits (cs : List Char) : Prop :=
  ∀ c ∈ cs.head?, isAsciiDigit c = false ∧ c ≠ '_'

theorem Sealed.endsDigits (h : Sealed rest) : EndsDigits rest := by
  obtain ⟨c, rest, rfl, hc⟩ := h
  obtain ⟨hname, hdigit, -⟩ := not_continues_of_isSeal hc
  intro d hd
  cases hd
  refine ⟨hdigit, ?_⟩
  rintro rfl
  exact absurd hname (by decide)

theorem digitGroups_append (hds : AllDigits ds) (hcs : EndsDigits cs) : digitGroups isAsciiDigit (ds ++ cs) = (ds, cs) := by
  induction ds with
  | nil =>
    cases cs with
    | nil => rfl
    | cons c rest =>
      obtain ⟨hdigit, hlow⟩ := hcs c rfl
      rw [List.nil_append, digitGroups.eq_def]
      simp [hdigit, hlow]
  | cons d ds ih =>
    obtain ⟨hd, hds⟩ := List.forall_mem_cons.1 hds
    rw [List.cons_append, digitGroups_cons hd, ih hds]

theorem ended_sealed (h : Sealed rest) (l : Literal) : ended l rest = some (l, rest) := by
  obtain ⟨c, rest, rfl, hc⟩ := h
  have hname := (not_continues_of_isSeal hc).1
  simp [ended, endsNumber, hname]

theorem endsDigits_point (cs : List Char) : EndsDigits ('.' :: cs) := by
  rintro c ⟨⟩
  decide

theorem endsDigits_power (cs : List Char) : EndsDigits ('e' :: cs) := by
  rintro c ⟨⟩
  decide

theorem readMantissa_whole (hds : AllDigits ds) (hcs : EndsDigits cs) (hpoint : cs.head? ≠ some '.') :
    readMantissa (ds ++ cs) = ⟨ds, none, cs⟩ := by
  unfold readMantissa
  rw [digitGroups_append hds hcs]
  dsimp only
  split
  · exact absurd rfl hpoint
  · rfl

theorem readMantissa_point (hds : AllDigits ds) (hfs : AllDigits fs) (hne : fs ≠ []) (hcs : EndsDigits cs) :
    readMantissa (ds ++ '.' :: (fs ++ cs)) = ⟨ds, some fs, cs⟩ := by
  obtain ⟨d, fs, rfl⟩ := List.exists_cons_of_ne_nil hne
  unfold readMantissa
  rw [digitGroups_append hds (endsDigits_point _)]
  simp only [List.cons_append, hfs d List.mem_cons_self, if_true]
  rw [← List.cons_append, digitGroups_append hfs hcs]

theorem readPower_signed (hc : c = '+' ∨ c = '-') (hes : AllDigits es) (hne : es ≠ []) (hrest : EndsDigits rest) :
    ∃ e, readPower (c :: (es ++ rest)) = some (e, rest) := by
  obtain ⟨d, es, rfl⟩ := List.exists_cons_of_ne_nil hne
  have hgroups := digitGroups_append hes hrest
  rw [List.cons_append] at hgroups
  rcases hc with rfl | rfl <;> simp [readPower, hes d List.mem_cons_self, hgroups]

/-- A digit behind which there is no letter of a radix begins a decimal number. -/
theorem readNumber_eq_decimal (h : ∀ d ∈ rest.head?, d ∉ ['x', 'X', 'o', 'O', 'b', 'B']) :
    readNumber (c :: rest) = readDecimalNumber (c :: rest) := by
  unfold readNumber
  split
  case h_7 => rfl
  all_goals
    next heq =>
      rw [(List.cons_eq_cons.1 heq).2] at h
      exact absurd (h _ rfl) (by decide)

/-- Behind a digit of a number stands another digit, or what stands behind the number. -/
theorem head?_not_radix (hds : AllDigits ds) (hcs : ∀ d ∈ cs.head?, d ∉ ['x', 'X', 'o', 'O', 'b', 'B']) :
    ∀ d ∈ (ds ++ cs).head?, d ∉ ['x', 'X', 'o', 'O', 'b', 'B'] := by
  cases ds with
  | nil => exact hcs
  | cons d ds =>
    rintro _ ⟨⟩ hmem
    have hdigit := hds d List.mem_cons_self
    have hall : (['x', 'X', 'o', 'O', 'b', 'B'].all fun d => !isAsciiDigit d) = true := by decide
    have hletter := List.all_eq_true.1 hall d hmem
    rw [hdigit] at hletter
    cases hletter

theorem Sealed.not_radix (h : Sealed rest) : ∀ d ∈ rest.head?, d ∉ ['x', 'X', 'o', 'O', 'b', 'B'] := by
  obtain ⟨c, rest, rfl, hc⟩ := h
  rintro _ ⟨⟩ hmem
  have hname := (not_continues_of_isSeal hc).1
  have hall : (['x', 'X', 'o', 'O', 'b', 'B'].all mayContinueName) = true := by decide
  rw [List.all_eq_true.1 hall c hmem] at hname
  cases hname

theorem Sealed.head?_ne (h : Sealed rest) (hc : isSeal c = false) : rest.head? ≠ some c := by
  obtain ⟨d, rest, rfl, hd⟩ := h
  rintro ⟨⟩
  rw [hc] at hd
  cases hd

/-- A whole number is read back if it does not have too many digits. -/
theorem readNumber_whole (hds : AllDigits ds) (hne : ds ≠ []) (hzero : ds.head? = some '0' → ds = ['0'])
    (hrest : Sealed rest) : (readNumber (ds ++ rest)).map Prod.snd = if ds.length ≤ digitLimit then some rest else none := by
  have hread : readDecimalNumber (ds ++ rest) = finishNumber ⟨ds, none, rest⟩ none rest := by
    unfold readDecimalNumber
    rw [readMantissa_whole hds hrest.endsDigits (hrest.head?_ne (by decide))]
    dsimp only
    split
    · exact absurd rfl (hrest.head?_ne (by decide))
    · exact absurd rfl (hrest.head?_ne (by decide))
    · rfl
  have hsuperfluous : (decide (ds.head? = some '0') && ds.any (· ≠ '0')) = false := by
    by_cases h : ds.head? = some '0'
    · rw [hzero h]
      decide
    · simp [h]
  obtain ⟨c, ds, rfl⟩ := List.exists_cons_of_ne_nil hne
  rw [List.cons_append, readNumber_eq_decimal (head?_not_radix (List.forall_mem_cons.1 hds).2 hrest.not_radix),
    ← List.cons_append, hread]
  unfold finishNumber
  dsimp only
  split
  · exact absurd rfl (hrest.head?_ne (by decide))
  · exact absurd rfl (hrest.head?_ne (by decide))
  · simp only [Option.isSome_none, Bool.or_self, Bool.false_eq_true, if_false, hsuperfluous]
    by_cases hlong : digitLimit < (c :: ds).length
    · rw [if_pos hlong, if_neg (not_le.2 hlong)]
      rfl
    · rw [if_neg hlong, if_pos (not_lt.1 hlong), ended_sealed hrest]
      rfl

/-- What comes of a number with a point or a power is not limited. -/
theorem finishNumber_sealed {m : Mantissa} {e : Option Int} (h : m.fraction.isSome = true ∨ e.isSome = true)
    (hrest : Sealed rest) : (finishNumber m e rest).map Prod.snd = some rest := by
  unfold finishNumber
  dsimp only
  split
  · exact absurd rfl (hrest.head?_ne (by decide))
  · exact absurd rfl (hrest.head?_ne (by decide))
  · rw [if_pos (by simpa using h), ended_sealed hrest]
    rfl

/-- A number with a point is read back. -/
theorem readNumber_point (hds : AllDigits ds) (hne : ds ≠ []) (hfs : AllDigits fs) (hfs' : fs ≠ [])
    (hrest : Sealed rest) : (readNumber (ds ++ '.' :: (fs ++ rest))).map Prod.snd = some rest := by
  have hread : readDecimalNumber (ds ++ '.' :: (fs ++ rest)) = finishNumber ⟨ds, some fs, rest⟩ none rest := by
    unfold readDecimalNumber
    rw [readMantissa_point hds hfs hfs' hrest.endsDigits]
    dsimp only
    split
    · exact absurd rfl (hrest.head?_ne (by decide))
    · exact absurd rfl (hrest.head?_ne (by decide))
    · rfl
  obtain ⟨c, ds, rfl⟩ := List.exists_cons_of_ne_nil hne
  have hpoint : ∀ d ∈ ('.' :: (fs ++ rest)).head?, d ∉ ['x', 'X', 'o', 'O', 'b', 'B'] := by
    rintro _ ⟨⟩
    decide
  rw [List.cons_append, readNumber_eq_decimal (head?_not_radix (List.forall_mem_cons.1 hds).2 hpoint),
    ← List.cons_append, hread]
  exact finishNumber_sealed (Or.inl rfl) hrest

/-- A digit, a fraction if there is one, and a signed power are read back. -/
theorem readNumber_power {sign : Char} (hc : isAsciiDigit c = true) (hfs : AllDigits fs) (hsign : sign = '+' ∨ sign = '-')
    (hes : AllDigits es) (hne : es ≠ []) (hrest : Sealed rest) :
    (readNumber (c :: ((if fs.isEmpty then [] else '.' :: fs) ++ 'e' :: sign :: (es ++ rest)))).map Prod.snd =
      some rest := by
  obtain ⟨e, hpower⟩ := readPower_signed hsign hes hne hrest.endsDigits
  have hread : ∀ {cs m}, readMantissa cs = m → m.rest = 'e' :: sign :: (es ++ rest) →
      readDecimalNumber cs = finishNumber m (some e) rest := by
    rintro cs m rfl hm
    unfold readDecimalNumber
    simp only [hm, hpower]
  have hdigit : AllDigits [c] := List.forall_mem_singleton.2 hc
  have hfinish : ∀ m : Mantissa, (finishNumber m (some e) rest).map Prod.snd = some rest :=
    fun m => finishNumber_sealed (Or.inr rfl) hrest
  cases fs with
  | nil =>
    have hletter : ∀ d ∈ ('e' :: sign :: (es ++ rest)).head?, d ∉ ['x', 'X', 'o', 'O', 'b', 'B'] := by
      rintro _ ⟨⟩
      decide
    have hmantissa := readMantissa_whole hdigit (endsDigits_power (sign :: (es ++ rest))) (by simp)
    rw [List.singleton_append] at hmantissa
    change (readNumber (c :: 'e' :: sign :: (es ++ rest))).map Prod.snd = some rest
    rw [readNumber_eq_decimal hletter, hread hmantissa rfl]
    exact hfinish _
  | cons f fs =>
    have hpoint : ∀ d ∈ ('.' :: (f :: fs ++ 'e' :: sign :: (es ++ rest))).head?, d ∉ ['x', 'X', 'o', 'O', 'b', 'B'] := by
      rintro _ ⟨⟩
      decide
    have hmantissa := readMantissa_point hdigit hfs (List.cons_ne_nil f fs) (endsDigits_power (sign :: (es ++ rest)))
    rw [List.singleton_append] at hmantissa
    change (readNumber (c :: '.' :: (f :: fs ++ 'e' :: sign :: (es ++ rest)))).map Prod.snd = some rest
    rw [readNumber_eq_decimal hpoint, hread hmantissa rfl]
    exact hfinish _

end

/-! Writing texts -/

section
variable {quote c : Char} {cs tail : List Char}

theorem readShort_cons (hslash : c ≠ '\\') : readShort quote (c :: tail) =
    if c = quote then some ([], tail) else if c = '\n' then none
    else (readShort quote tail).map fun (body, rest) => (c :: body, rest) := by
  rw [readShort.eq_def]
  split
  · next heq => cases heq
  · next heq => exact absurd (List.cons_eq_cons.1 heq).1 hslash
  · next heq =>
    obtain ⟨rfl, rfl⟩ := List.cons_eq_cons.1 heq
    rfl

/-- A character that stands for itself in a text. -/
theorem readShort_plain (hquote : c ≠ quote) (hslash : c ≠ '\\') (hline : c ≠ '\n') :
    (readShort quote (c :: tail)).map Prod.snd = (readShort quote tail).map Prod.snd := by
  rw [readShort_cons hslash, if_neg hquote, if_neg hline, Option.map_map]
  rfl

theorem readShort_slash : (readShort quote ('\\' :: c :: tail)).map Prod.snd = (readShort quote tail).map Prod.snd := by
  rw [readShort, Option.map_map]
  rfl

theorem readShort_plains (h : ∀ c ∈ cs, c ≠ quote ∧ c ≠ '\\' ∧ c ≠ '\n') :
    (readShort quote (cs ++ tail)).map Prod.snd = (readShort quote tail).map Prod.snd := by
  induction cs with
  | nil => rfl
  | cons c cs ih =>
    obtain ⟨⟨hquote, hslash, hline⟩, hcs⟩ := List.forall_mem_cons.1 h
    rw [List.cons_append, readShort_plain hquote hslash hline, ih hcs]

/-- Digits of a code point are no marks of a text. -/
theorem hex_plain (hquote : quote = '\'' ∨ quote = '"') (width n : Nat) :
    ∀ c ∈ hex width n, c ≠ quote ∧ c ≠ '\\' ∧ c ≠ '\n' := by
  have hmarks : ∀ d < 16, d.digitChar ≠ '\'' ∧ d.digitChar ≠ '"' ∧ d.digitChar ≠ '\\' ∧ d.digitChar ≠ '\n' := by decide
  intro c hc
  have hdigit : ∃ d < 16, c = d.digitChar := by
    rcases List.mem_append.1 hc with hzero | hdigit
    · exact ⟨0, by decide, List.eq_of_mem_replicate hzero⟩
    · exact mem_toDigits (by decide) hdigit
  obtain ⟨d, hd, rfl⟩ := hdigit
  obtain ⟨hsingle, hdouble, hslash, hline⟩ := hmarks d hd
  rcases hquote with rfl | rfl
  · exact ⟨hsingle, hslash, hline⟩
  · exact ⟨hdouble, hslash, hline⟩

/-- An escaped character is read over in a text. -/
theorem readShort_escapeChar (hquote : quote = '\'' ∨ quote = '"') (c : Char) :
    (readShort quote (escapeChar quote c ++ tail)).map Prod.snd = (readShort quote tail).map Prod.snd := by
  unfold escapeChar
  split_ifs with hspecial hnewline hreturn htab hprintable
  · exact readShort_slash
  · exact readShort_slash
  · exact readShort_slash
  · exact readShort_slash
  · simp only [Bool.or_eq_true, decide_eq_true_eq, not_or] at hspecial
    exact readShort_plain hspecial.1 hspecial.2 hnewline
  · exact readShort_slash.trans (readShort_plains (hex_plain hquote _ _))
  · exact readShort_slash.trans (readShort_plains (hex_plain hquote _ _))
  · exact readShort_slash.trans (readShort_plains (hex_plain hquote _ _))

theorem readShort_escapes (hquote : quote = '\'' ∨ quote = '"') (cs tail : List Char) :
    (readShort quote (cs.flatMap (escapeChar quote) ++ tail)).map Prod.snd = (readShort quote tail).map Prod.snd := by
  induction cs with
  | nil => rfl
  | cons c cs ih => rw [List.flatMap_cons, List.append_assoc, readShort_escapeChar hquote, ih]

theorem head_escapeChar_ne (hquote : quote = '\'' ∨ quote = '"') (c : Char) :
    ∃ d rest, escapeChar quote c = d :: rest ∧ d ≠ quote := by
  have hslash : '\\' ≠ quote := by
    rcases hquote with rfl | rfl <;> decide
  unfold escapeChar
  split_ifs with hspecial
  case pos => exact ⟨'\\', _, rfl, hslash⟩
  case pos => exact ⟨'\\', _, rfl, hslash⟩
  case pos => exact ⟨'\\', _, rfl, hslash⟩
  case pos => exact ⟨'\\', _, rfl, hslash⟩
  case pos =>
    simp only [Bool.or_eq_true, decide_eq_true_eq, not_or] at hspecial
    exact ⟨c, [], rfl, hspecial.1⟩
  case pos => exact ⟨'\\', _, rfl, hslash⟩
  case pos => exact ⟨'\\', _, rfl, hslash⟩
  case neg => exact ⟨'\\', _, rfl, hslash⟩

/-- A quoted text is read back up to its last quote, in front of a mark. -/
theorem readBody_escapes (hquote : quote = '\'' ∨ quote = '"') (cs : List Char) (htail : Sealed tail) :
    (readBody quote (cs.flatMap (escapeChar quote) ++ quote :: tail)).map Prod.snd = some tail := by
  have hclosed : readShort quote (quote :: tail) = some ([], tail) := by
    rw [readShort_cons (by rcases hquote with rfl | rfl <;> decide), if_pos rfl]
  have hshort : (readShort quote (cs.flatMap (escapeChar quote) ++ quote :: tail)).map Prod.snd = some tail := by
    rw [readShort_escapes hquote, hclosed]
    rfl
  unfold readBody
  split
  · next a b rest heq =>
    have hsingle : ¬ (decide (a = quote) && decide (b = quote)) = true := by
      simp only [Bool.and_eq_true, decide_eq_true_eq, not_and]
      rintro rfl rfl
      cases cs with
      | nil =>
        obtain ⟨d, more, rfl, hd⟩ := htail
        obtain ⟨-, -, -, hapostrophe, hdouble⟩ := not_continues_of_isSeal hd
        obtain ⟨-, htwo⟩ := List.cons_eq_cons.1 heq
        have hsame := (List.cons_eq_cons.1 htwo).1
        rcases hquote with rfl | rfl
        · exact hapostrophe hsame
        · exact hdouble hsame
      | cons c cs =>
        obtain ⟨d, more, hescape, hd⟩ := head_escapeChar_ne hquote c
        rw [List.flatMap_cons, hescape] at heq
        exact hd (List.cons_eq_cons.1 heq).1
    rw [if_neg hsingle]
    exact hshort
  · exact hshort

end

end Flowgraph.Expression
