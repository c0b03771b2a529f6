import Flowgraph.Proofs.Decimal
import Flowgraph.Proofs.Program.Surface

/-! The pieces of composed lines. A piece that is always the same is checked once, in front of everything that may
follow it. A text, a number or a value is written so that it can be read over, unless a number is too long or too
many brackets are open. -/

namespace Flowgraph

open Text Expression Decimal

namespace Expression

variable {quote : Char} {cs body tail : List Char}

/-! What is read of a text does not depend on what stands behind its end -/

theorem readShort_append (hquote : quote ≠ '\\') (h : readShort quote cs = some (body, tail)) (more : List Char) :
    readShort quote (cs ++ more) = some (body, tail ++ more) := by
  fun_induction readShort quote cs generalizing body with
  | case1 => cases h
  | case2 c rest ih =>
    obtain ⟨⟨inner, behind⟩, hinner, heq⟩ := Option.map_eq_some_iff.1 h
    cases heq
    simp [readShort, ih hinner]
  | case3 rest =>
    cases h
    rw [List.cons_append, readShort_cons hquote, if_pos rfl]
  | case4 => cases h
  | case5 c rest hslash hc hline ih =>
    obtain ⟨⟨inner, behind⟩, hinner, heq⟩ := Option.map_eq_some_iff.1 h
    cases heq
    cases rest with
    | nil => cases hinner
    | cons d rest =>
      have hne : c ≠ '\\' := fun heq => hslash d rest heq rfl
      rw [List.cons_append, readShort_cons hne, if_neg hc, if_neg hline, ih hinner]
      rfl

theorem readLong_append (h : readLong quote cs = some (body, tail)) (more : List Char) :
    readLong quote (cs ++ more) = some (body, tail ++ more) := by
  fun_induction readLong quote cs generalizing body with
  | case1 => cases h
  | case2 c rest ih =>
    obtain ⟨⟨inner, behind⟩, hinner, heq⟩ := Option.map_eq_some_iff.1 h
    cases heq
    simp [readLong, ih hinner]
  | case3 a b c rest hslash hclosed =>
    cases h
    simp [readLong, hclosed]
  | case4 a b c rest hslash hopen ih =>
    obtain ⟨⟨inner, behind⟩, hinner, heq⟩ := Option.map_eq_some_iff.1 h
    cases heq
    have hnext := ih hinner
    simp only [List.cons_append] at hnext
    simp [readLong, hopen, hnext]
  | case5 => cases h

theorem readBody_append (hquote : quote ≠ '\\') (htail : tail ≠ []) (h : readBody quote cs = some (body, tail))
    (more : List Char) : readBody quote (cs ++ more) = some (body, tail ++ more) := by
  unfold readBody at h ⊢
  split at h
  · next a b rest =>
    dsimp only [List.cons_append]
    split_ifs at h ⊢ with hlong
    · exact readLong_append h more
    · exact readShort_append hquote h more
  · next hshort =>
    -- what is shorter than two characters is not closed in front of something
    have hcs := readShort_eq_some h
    cases body with
    | nil =>
      obtain ⟨d, rest, rfl⟩ := List.exists_cons_of_ne_nil htail
      exact absurd hcs (hshort _ _ _)
    | cons a body =>
      cases body with
      | nil => exact absurd hcs (hshort _ _ _)
      | cons b body => exact absurd hcs (hshort _ _ _)

end Expression

namespace Program

variable {stack behind cs ds rest more final : List Char} {c quote : Char}

/-! Marks -/

theorem leads_newline : Leads stack ('\n' :: rest) final ↔ Leads stack rest final :=
  leads_of_token? rfl

theorem leads_space : Leads stack (' ' :: rest) final ↔ Leads stack rest final :=
  leads_of_token? rfl

theorem leads_comma : Leads stack (',' :: rest) final ↔ Leads stack rest final :=
  leads_of_token? rfl

theorem leads_colon : Leads stack (':' :: rest) final ↔ Leads stack rest final :=
  leads_of_token? rfl

theorem leads_minus : Leads stack ('-' :: rest) final ↔ Leads stack rest final :=
  leads_of_token? rfl

/-- A bracket is closed by its own mark. -/
theorem leads_closing (h : closer? c = some quote) : Leads (c :: stack) (quote :: rest) final ↔ Leads stack rest final := by
  unfold closer? at h
  split_ifs at h with hround hsquare hcurly
  · cases h
    exact hround ▸ leads_of_token? rfl
  · cases h
    exact hsquare ▸ leads_of_token? rfl
  · cases h
    exact hcurly ▸ leads_of_token? rfl

/-! Pieces that are always the same -/

/-- What stands behind a number that is written plainly: digits, perhaps digits behind a point, and then a mark. -/
def behindNumber? (cs : List Char) : Option (List Char) :=
  let ds := cs.takeWhile isAsciiDigit
  match cs.dropWhile isAsciiDigit with
  | '.' :: tail =>
    let rest := tail.dropWhile isAsciiDigit
    if (rest.head?.map isSeal).getD false && !(tail.takeWhile isAsciiDigit).isEmpty then some rest else none
  | rest =>
    if (rest.head?.map isSeal).getD false && (ds.head? ≠ some '0' || ds.length = 1) && ds.length ≤ digitLimit then some rest
    else none

/-- The brackets open behind a piece whose tokens all end in it. -/
def solid? : Nat → List Char → List Char → Option (List Char)
  | 0, _, _ => none
  | _ + 1, stack, [] => some stack
  | steps + 1, stack, c :: rest =>
    if c = '\n' || isGap c then solid? steps stack rest
    else if c = '"' || c = '\'' then
      match readBody c rest with
      | some (body, tail) => if tail.isEmpty || hasNull body then none else solid? steps stack tail
      | none => none
    else if mayStartName c then
      let tail := rest.dropWhile mayContinueName
      if tail.isEmpty || (misfit? (c :: rest.takeWhile mayContinueName)).isSome then none else solid? steps stack tail
    else if isAsciiDigit c then
      match behindNumber? (c :: rest) with
      | some tail => solid? steps stack tail
      | none => none
    else if c = '#' || c = '\\' || c = '.' && (rest.head?.map isAsciiDigit).getD true || !isPrintable c then none
    else
      match turn? stack c with
      | some behind => solid? steps behind rest
      | none => none

theorem sealed_of_head? (h : (rest.head?.map isSeal).getD false = true) (more : List Char) : Sealed (rest ++ more) := by
  cases rest with
  | nil => cases h
  | cons c rest => exact sealed_cons h

theorem allDigits_takeWhile (cs : List Char) : AllDigits (cs.takeWhile isAsciiDigit) :=
  List.all_eq_true.1 List.all_takeWhile

/-- A number that is written plainly is read up to its mark. -/
theorem readNumber_of_behindNumber? (hc : isAsciiDigit c = true) (h : behindNumber? (c :: cs) = some rest)
    (more : List Char) : (readNumber (c :: cs ++ more)).map Prod.snd = some (rest ++ more) := by
  have hds := allDigits_takeWhile (c :: cs)
  have hne : (c :: cs).takeWhile isAsciiDigit ≠ [] := by simp [hc]
  rw [← List.takeWhile_append_dropWhile (p := isAsciiDigit) (l := c :: cs)]
  unfold behindNumber? at h
  generalize (c :: cs).takeWhile isAsciiDigit = ds at *
  generalize (c :: cs).dropWhile isAsciiDigit = behind at *
  dsimp only at h
  split at h
  · next tail =>
    split_ifs at h with hcheck
    cases h
    simp only [Bool.and_eq_true, Bool.not_eq_true', List.isEmpty_eq_false_iff] at hcheck
    have hread := readNumber_point hds hne (allDigits_takeWhile tail) hcheck.2 (sealed_of_head? hcheck.1 more)
    rw [← List.append_assoc, List.takeWhile_append_dropWhile] at hread
    rwa [List.append_assoc]
  · split_ifs at h with hcheck
    cases h
    simp only [Bool.and_eq_true, Bool.or_eq_true, decide_eq_true_eq] at hcheck
    obtain ⟨⟨hseal, hzero⟩, hlimit⟩ := hcheck
    have hone : ds.head? = some '0' → ds = ['0'] := by
      intro hhead
      obtain ⟨d, hd⟩ := List.length_eq_one_iff.1 (hzero.resolve_left fun h => h hhead)
      rw [hd] at hhead ⊢
      cases hhead
      rfl
    rw [List.append_assoc, readNumber_whole hds hne hone (sealed_of_head? hseal more), if_pos hlimit]

/-- A name that ends in a piece is the same in front of everything. -/
theorem takeWhile_append_of_dropWhile {p : Char → Bool} (h : cs.dropWhile p ≠ []) (more : List Char) :
    (cs ++ more).takeWhile p = cs.takeWhile p ∧ (cs ++ more).dropWhile p = cs.dropWhile p ++ more := by
  induction cs with
  | nil => exact absurd rfl h
  | cons c cs ih =>
    cases hc : p c with
    | true =>
      rw [List.dropWhile_cons_of_pos hc] at h
      simp [hc, ih h]
    | false => simp [hc]

/-- In front of more, the first token of a solid piece leads where it leads in the piece. -/
theorem token?_of_solid? {n : Nat} (h : solid? (n + 1) stack (c :: rest) = some behind) (more : List Char) :
    ∃ between tail, token? stack c (rest ++ more) = some (between, tail ++ more) ∧
      solid? n between tail = some behind := by
  rw [solid?] at h
  dsimp only at h
  split_ifs at h with hgap hquote hname hempty hdigit hother
  · refine ⟨stack, rest, ?_, h⟩
    rcases (by simpa using hgap : c = '\n' ∨ isGap c = true) with rfl | hgap
    · rfl
    · unfold token?
      split_ifs <;> rfl
  · split at h
    · next body tail hbody =>
      split_ifs at h with hbad
      simp only [Bool.or_eq_true, List.isEmpty_iff, not_or, Bool.not_eq_true] at hbad
      have hc : c = '"' ∨ c = '\'' := by simpa using hquote
      have hslash : c ≠ '\\' := by rcases hc with rfl | rfl <;> decide
      refine ⟨stack, tail, ?_, h⟩
      simp [token?_quote hc, readBody_append hslash hbad.1 hbody more, hbad.2]
    · cases h
  · simp only [Bool.or_eq_true, List.isEmpty_iff, not_or, Bool.not_eq_true] at hempty
    obtain ⟨htake, hdrop⟩ := takeWhile_append_of_dropWhile hempty.1 more
    refine ⟨stack, _, ?_, h⟩
    rw [token?_name hname, htake, hdrop, hempty.2]
    rfl
  · split at h
    · next tail hbehind =>
      have hread := readNumber_of_behindNumber? hdigit hbehind more
      obtain ⟨r, hr, hsnd⟩ := Option.map_eq_some_iff.1 hread
      refine ⟨stack, tail, ?_, h⟩
      rw [token?_digit hdigit, ← List.cons_append, hr, ← hsnd]
      rfl
    · cases h
  · simp only [Bool.or_eq_true, Bool.and_eq_true, decide_eq_true_eq, Bool.not_eq_true', not_or, not_and,
      Bool.not_eq_false, Bool.not_eq_true] at hgap hquote hother
    obtain ⟨⟨⟨hcomment, hslash⟩, hpoint⟩, hprintable⟩ := hother
    have hnumber : (decide (c = '.') && ((rest ++ more).head?.map isAsciiDigit).getD false) = false := by
      by_cases hc : c = '.'
      · have hhead := hpoint hc
        cases rest with
        | nil => cases hhead
        | cons d rest => simpa [hc] using hhead
      · simp [hc]
    split at h
    · next between hturn =>
      refine ⟨between, rest, ?_, h⟩
      simp only [token?, hgap, hcomment, hslash, hquote, hname, hdigit, hnumber, hprintable, hturn, decide_false,
        Bool.or_self, Bool.false_eq_true, Bool.not_true, if_false, Option.map_some]
    · cases h

/-- A piece whose tokens all end in it is read over, whatever stands behind it. -/
theorem leads_of_solid? {steps : Nat} (h : solid? steps stack cs = some behind) (more : List Char) :
    Leads stack (cs ++ more) final ↔ Leads behind more final := by
  induction steps generalizing stack cs with
  | zero => cases h
  | succ n ih =>
    cases cs with
    | nil =>
      cases h
      rfl
    | cons c rest =>
      obtain ⟨between, tail, htoken, htail⟩ := token?_of_solid? h more
      rw [List.cons_append, leads_of_token? htoken]
      exact ih htail

/-! Words -/

theorem misfit?_eq_none (hc : startsIdentifier c = true) :
    misfit? (c :: cs) = none ↔ ∀ d ∈ cs, continuesIdentifier d = true := by
  simp [misfit?, hc]

theorem takeWhile_append_sealed (hcs : ∀ d ∈ cs, mayContinueName d = true) (hrest : Sealed rest) :
    (cs ++ rest).takeWhile mayContinueName = cs ∧ (cs ++ rest).dropWhile mayContinueName = rest := by
  obtain ⟨d, more, rfl, hd⟩ := hrest
  have hstop := (not_continues_of_isSeal hd).1
  constructor
  · rw [List.takeWhile_append_of_pos hcs]
    simp [hstop]
  · rw [List.dropWhile_append_of_pos hcs]
    simp [hstop]

/-- A word in front of a mark is read over if it is an identifier. -/
theorem leads_word (hname : mayStartName c = true) (hstart : startsIdentifier c = true)
    (hcs : ∀ d ∈ cs, mayContinueName d = true) (hrest : Sealed rest) :
    Leads stack (c :: cs ++ rest) final ↔ (∀ d ∈ cs, continuesIdentifier d = true) ∧ Leads stack rest final := by
  obtain ⟨htake, hdrop⟩ := takeWhile_append_sealed hcs hrest
  rw [List.cons_append, leads_cons_iff, token?_name hname, htake, hdrop, ← misfit?_eq_none hstart]
  cases misfit? (c :: cs) <;> simp

/-! Numbers -/

/-- What begins with a digit is read over as a number. -/
theorem leads_number (hds : AllDigits ds) (hne : ds ≠ []) (h : (readNumber (ds ++ cs)).map Prod.snd = some rest) :
    Leads stack (ds ++ cs) final ↔ Leads stack rest final := by
  obtain ⟨c, ds, rfl⟩ := List.exists_cons_of_ne_nil hne
  obtain ⟨r, hr, rfl⟩ := Option.map_eq_some_iff.1 h
  have htoken : token? stack c (ds ++ cs) = some (stack, r.2) := by
    rw [token?_digit (hds c List.mem_cons_self), ← List.cons_append, hr]
    rfl
  rw [List.cons_append]
  exact leads_of_token? htoken

theorem allDigits_toDigits (n : Nat) : AllDigits (Nat.toDigits 10 n) := by
  have hall : ∀ d < 10, isAsciiDigit d.digitChar = true := by decide
  intro c hc
  obtain ⟨d, hd, rfl⟩ := mem_toDigits (by decide) hc
  exact hall d hd

/-- Only zero begins with the digit zero. -/
theorem eq_zero_of_head? {n : Nat} (h : (Nat.toDigits 10 n).head? = some '0') : n = 0 := by
  induction n using Nat.strongRecOn with
  | _ n ih =>
    rw [Nat.toDigits_eq_if (by decide)] at h
    split_ifs at h with hn
    · interval_cases n <;> first | rfl | (revert h; decide)
    · rw [List.head?_append_of_ne_nil _ Nat.toDigits_ne_nil] at h
      have := ih (n / 10) (by omega) h
      omega

/-- A whole number is read over if it does not have too many digits. -/
theorem leads_nat (n : Nat) (hrest : Sealed rest) : Leads stack ((toString n).toList ++ rest) final ↔
    (Nat.toDigits 10 n).length ≤ digitLimit ∧ Leads stack rest final := by
  have hds := allDigits_toDigits n
  have hread := readNumber_whole hds Nat.toDigits_ne_nil (fun h => by rw [eq_zero_of_head? h]; rfl) hrest
  have hne : Nat.toDigits 10 n ≠ [] := Nat.toDigits_ne_nil
  rw [Nat.toString_eq_ofList_toDigits, String.toList_ofList]
  generalize Nat.toDigits 10 n = ds at hds hread hne ⊢
  by_cases hlimit : ds.length ≤ digitLimit
  · rw [if_pos hlimit] at hread
    rw [and_iff_right hlimit]
    exact leads_number hds hne hread
  · rw [if_neg hlimit, Option.map_eq_none_iff] at hread
    obtain ⟨c, ds, rfl⟩ := List.exists_cons_of_ne_nil hne
    rw [List.cons_append, leads_cons_iff, token?_digit (hds c List.mem_cons_self), ← List.cons_append, hread]
    exact iff_of_false (by simp) fun h => hlimit h.1

def Readable (n : Int) : Prop :=
  (Nat.toDigits 10 n.natAbs).length ≤ digitLimit

instance (n : Int) : Decidable (Readable n) :=
  inferInstanceAs (Decidable (_ ≤ _))

theorem leads_int (n : Int) (hrest : Sealed rest) : Leads stack ((toString n).toList ++ rest) final ↔
    Readable n ∧ Leads stack rest final := by
  cases n with
  | ofNat n => exact leads_nat n hrest
  | negSucc n =>
    have hminus : (toString (Int.negSucc n)).toList = '-' :: (toString (n + 1)).toList := by
      change ("-" ++ toString (n + 1)).toList = _
      rw [String.toList_append]
      rfl
    rw [hminus, List.cons_append, leads_minus, leads_nat (n + 1) hrest]
    rfl

theorem allDigits_append : AllDigits (ds ++ cs) ↔ AllDigits ds ∧ AllDigits cs :=
  List.forall_mem_append

theorem allDigits_zeros (n : Nat) : AllDigits (zeros n) := by
  intro c hc
  rw [List.eq_of_mem_replicate hc]
  decide

theorem allDigits_shortest (b : Binary) : AllDigits b.shortest.digits := by
  unfold Binary.shortest
  dsimp only
  split
  · exact (by decide : AllDigits ['0'])
  · next n count _ =>
    intro c hc
    exact allDigits_toDigits n c (List.mem_reverse.1 ((List.dropWhile_sublist _).subset (List.mem_reverse.1 hc)))

theorem leads_digits {d : Digits} (hd : AllDigits d.digits) (hne : d.digits ≠ []) (hrest : Sealed rest) :
    Leads stack (d.render ++ rest) final ↔ Leads stack rest final := by
  have htake : ∀ n, AllDigits (d.digits.take n) := fun n c hc => hd c (List.take_subset n _ hc)
  have hdrop : ∀ n, AllDigits (d.digits.drop n) := fun n c hc => hd c (List.drop_subset n _ hc)
  have hpointed : ∀ {whole fraction : List Char}, AllDigits whole → whole ≠ [] → AllDigits fraction → fraction ≠ [] →
      (Leads stack (whole ++ '.' :: (fraction ++ rest)) final ↔ Leads stack rest final) :=
    fun hw hw' hf hf' => leads_number hw hw' (readNumber_point hw hw' hf hf' hrest)
  unfold Digits.render
  split_ifs
  · unfold Digits.positional
    dsimp only
    split_ifs with hpoint hwhole
    · have := hpointed (by decide : AllDigits ['0']) (by decide)
        (allDigits_append.2 ⟨allDigits_zeros (-d.point).toNat, hd⟩) (by simp [hne])
      simpa using this
    · have := hpointed (allDigits_append.2 ⟨hd, allDigits_zeros (d.point.toNat - d.digits.length)⟩) (by simp [hne])
        (by decide : AllDigits ['0']) (by decide)
      simpa using this
    · have := hpointed (htake d.point.toNat) (by simp [hne]; omega) (hdrop d.point.toNat) (by simp; omega)
      simpa using this
  · obtain ⟨c, ds, hcons⟩ := List.exists_cons_of_ne_nil hne
    obtain ⟨hc, hds⟩ := List.forall_mem_cons.1 (hcons ▸ hd)
    unfold Digits.scientific exponentText
    rw [hcons]
    generalize d.point - 1 = power
    have hpower : AllDigits (zeros (2 - (digitsOf power.natAbs).length) ++ digitsOf power.natAbs) :=
      allDigits_append.2 ⟨allDigits_zeros _, allDigits_toDigits power.natAbs⟩
    have hsign : (if power < 0 then '-' else '+') = '+' ∨ (if power < 0 then '-' else '+') = '-' := by
      split_ifs <;> simp
    have hread := readNumber_power hc hds hsign hpower (by simp [digitsOf]) hrest
    have hlead : Leads stack _ final ↔ Leads stack rest final :=
      leads_number (List.forall_mem_singleton.2 hc) (by simp) hread
    simpa using hlead

/-- A word of which it is known that it is an identifier. -/
theorem leads_known (c : Char) (cs : List Char) (hname : mayStartName c = true) (hstart : startsIdentifier c = true)
    (hcs : (cs.all fun d => mayContinueName d && continuesIdentifier d) = true) (hrest : Sealed rest) :
    Leads stack (c :: cs ++ rest) final ↔ Leads stack rest final := by
  simp only [List.all_eq_true, Bool.and_eq_true] at hcs
  rw [leads_word hname hstart (fun d hd => (hcs d hd).1) hrest, and_iff_right fun d hd => (hcs d hd).2]

theorem leads_float (x : Float) (hrest : Sealed rest) :
    Leads stack ((render x).toList ++ rest) final ↔ Leads stack rest final := by
  have hsign : ∀ negative cs, Leads stack (signText negative ++ cs) final ↔ Leads stack cs final := by
    rintro (_ | _) cs
    · rfl
    · exact leads_of_token? rfl
  unfold render renderChars
  rw [String.toList_ofList]
  split
  · exact leads_known 'n' ['a', 'n'] (by decide) (by decide) (by decide) hrest
  · rw [List.append_assoc, hsign]
    exact leads_known 'i' ['n', 'f'] (by decide) (by decide) (by decide) hrest
  · rw [List.append_assoc, hsign]
    split_ifs with hzero
    · have hdigit : AllDigits ['0'] := by decide
      have hread := readNumber_point hdigit (by decide) hdigit (by decide) hrest
      have hlead : Leads stack (['0'] ++ '.' :: (['0'] ++ rest)) final ↔ Leads stack rest final :=
        leads_number hdigit (by decide) hread
      exact hlead
    · exact leads_digits (allDigits_shortest _) (Binary.shortest_ne_nil hzero) hrest

/-! Quoted texts -/

theorem chooseQuote_cases (cs : List Char) : chooseQuote cs = '\'' ∨ chooseQuote cs = '"' := by
  unfold chooseQuote
  split_ifs
  · exact Or.inr rfl
  · exact Or.inl rfl

/-- Nothing is null that is escaped. -/
theorem escapeChar_ne_null (hquote : quote = '\'' ∨ quote = '"') (c : Char) : ∀ d ∈ escapeChar quote c, d.toNat ≠ 0 := by
  have hhex : ∀ width n, ∀ d ∈ hex width n, d.toNat ≠ 0 := by
    have hall : ∀ d < 16, d.digitChar.toNat ≠ 0 := by decide
    intro width n d hd
    rcases List.mem_append.1 hd with hd | hd
    · rw [List.eq_of_mem_replicate hd]
      decide
    · obtain ⟨k, hk, rfl⟩ := mem_toDigits (by decide) hd
      exact hall k hk
  unfold escapeChar
  split_ifs with hspecial hnewline hreturn htab hprintable
  · have hc : c = quote ∨ c = '\\' := by simpa using hspecial
    rcases hc with rfl | rfl
    · rcases hquote with rfl | rfl <;> simp
    · simp
  · simp
  · simp
  · simp
  · simpa using isPrintable_ne_null hprintable
  · simpa using hhex 2 c.toNat
  · simpa using hhex 4 c.toNat
  · simpa using hhex 8 c.toNat

/-- Whatever a text is, there is nothing null in it once it is quoted. -/
theorem hasNull_quoted (s : String) : hasNull (quoted s).toList = false := by
  have hquote := chooseQuote_cases s.toList
  have hne : (chooseQuote s.toList).toNat ≠ 0 := by rcases hquote with h | h <;> rw [h] <;> decide
  rw [hasNull_eq_false, quoted, quotedChars, String.toList_ofList]
  intro c hc
  simp only [List.mem_append, List.mem_cons, List.mem_flatMap, List.not_mem_nil, or_false] at hc
  rcases hc with (rfl | ⟨d, -, hc⟩) | rfl
  · exact hne
  · exact escapeChar_ne_null hquote d c hc
  · exact hne

/-- A quoted text is read over in front of a mark. -/
theorem leads_quoted (s : String) (hrest : Sealed rest) :
    Leads stack ((quoted s).toList ++ rest) final ↔ Leads stack rest final := by
  have hquote := chooseQuote_cases s.toList
  have hnull := hasNull_eq_false.1 (hasNull_quoted s)
  unfold quoted quotedChars at hnull ⊢
  rw [String.toList_ofList] at hnull ⊢
  dsimp only at hnull ⊢
  generalize chooseQuote s.toList = quote at hquote hnull ⊢
  obtain ⟨⟨body, tail⟩, hbody, rfl⟩ := Option.map_eq_some_iff.1 (readBody_escapes hquote s.toList hrest)
  obtain ⟨opening, closing, heq, -⟩ := readBody_eq_some hbody
  have hbodyNull : hasNull body = false := by
    have hsame : s.toList.flatMap (escapeChar quote) ++ [quote] = opening ++ body ++ closing :=
      List.append_cancel_right (by simpa using heq)
    refine hasNull_eq_false.2 fun c hc => hnull c ?_
    rw [List.cons_append, hsame]
    simp [hc]
  have htoken : token? stack quote (s.toList.flatMap (escapeChar quote) ++ quote :: tail) = some (stack, tail) := by
    simp [token?_quote hquote.symm, hbody, hbodyNull]
  simp only [List.cons_append, List.append_assoc, List.nil_append]
  exact leads_of_token? htoken

/-! Values -/

theorem leads_opening (h : c = '(' ∨ c = '[' ∨ c = '\x7b') :
    Leads stack (c :: rest) final ↔ stack.length < nestingLimit ∧ Leads (c :: stack) rest final := by
  have htoken : token? stack c rest = if nestingLimit ≤ stack.length then none else some (c :: stack, rest) := by
    have hturn : token? stack c rest = (turn? stack c).map fun behind => (behind, rest) := by
      rcases h with rfl | rfl | rfl <;> rfl
    have hopens : (closer? c).isSome = true := by
      rcases h with rfl | rfl | rfl <;> rfl
    rw [hturn, turn?.eq_def, if_pos hopens]
    split_ifs <;> rfl
  rw [leads_cons_iff, htoken]
  by_cases hfull : nestingLimit ≤ stack.length
  · simp [hfull, Nat.not_lt.2 hfull]
  · simp [hfull, Nat.lt_of_not_le hfull]

end Program

namespace Value

open Program

mutual

/-- The literal has room within this many brackets, and all whole numbers in it are short enough. -/
def Legible (room : Nat) : Value → Prop
  | .null | .bool _ | .float _ | .text _ => True
  | .int n => Readable n
  | .list items => 0 < room ∧ LegibleItems (room - 1) items
  | .object fields => 0 < room ∧ LegibleFields (room - 1) fields

def LegibleItems (room : Nat) : List Value → Prop
  | [] => True
  | v :: rest => v.Legible room ∧ LegibleItems room rest

def LegibleFields (room : Nat) : List (String × Value) → Prop
  | [] => True
  | (_, v) :: rest => v.Legible room ∧ LegibleFields room rest

end

section
variable {final : List Char}

mutual

/-- A literal is read over if it is legible. -/
theorem leads_literal {stack rest : List Char} (hrest : Sealed rest) : ∀ v : Value,
    Leads stack (v.literal.toList ++ rest) final ↔ v.Legible (nestingLimit - stack.length) ∧ Leads stack rest final
  | .null => by
    rw [Legible, true_and]
    exact leads_known 'N' ['o', 'n', 'e'] (by decide) (by decide) (by decide) hrest
  | .bool true => by
    rw [Legible, true_and]
    exact leads_known 'T' ['r', 'u', 'e'] (by decide) (by decide) (by decide) hrest
  | .bool false => by
    rw [Legible, true_and]
    exact leads_known 'F' ['a', 'l', 's', 'e'] (by decide) (by decide) (by decide) hrest
  | .int n => leads_int n hrest
  | .float x => by
    rw [literal, leads_float x hrest, Legible, true_and]
  | .text s => by
    rw [literal, leads_quoted s hrest, Legible, true_and]
  | .list items => by
    have hbracket : (list items).literal.toList ++ rest = '[' :: ((literalItems items).toList ++ ']' :: rest) := by
      simp [literal]
    rw [hbracket, leads_opening (Or.inr (Or.inl rfl)), leads_literalItems items, leads_closing rfl, Legible,
      List.length_cons, ← Nat.sub_sub, and_assoc, Nat.sub_pos_iff_lt]
  | .object fields => by
    have hbracket : (object fields).literal.toList ++ rest =
        '\x7b' :: ((literalFields fields).toList ++ '\x7d' :: rest) := by
      simp [literal]
    rw [hbracket, leads_opening (Or.inr (Or.inr rfl)), leads_literalFields fields, leads_closing rfl, Legible,
      List.length_cons, ← Nat.sub_sub, and_assoc, Nat.sub_pos_iff_lt]

theorem leads_literalItems {stack rest : List Char} : ∀ vs : List Value,
    Leads stack ((literalItems vs).toList ++ ']' :: rest) final ↔
      LegibleItems (nestingLimit - stack.length) vs ∧ Leads stack (']' :: rest) final
  | [] => by
    simp [literalItems, LegibleItems]
  | [v] => by
    rw [literalItems, leads_literal (sealed_cons rfl) v]
    simp [LegibleItems]
  | v :: w :: more => by
    have hcomma : (literalItems (v :: w :: more)).toList ++ ']' :: rest =
        v.literal.toList ++ ',' :: ' ' :: ((literalItems (w :: more)).toList ++ ']' :: rest) := by
      simp [literalItems]
    rw [hcomma, leads_literal (sealed_cons rfl) v, leads_comma, leads_space, leads_literalItems (w :: more)]
    exact and_assoc.symm

theorem leads_literalFields {stack rest : List Char} : ∀ fields : List (String × Value),
    Leads stack ((literalFields fields).toList ++ '\x7d' :: rest) final ↔
      LegibleFields (nestingLimit - stack.length) fields ∧ Leads stack ('\x7d' :: rest) final
  | [] => by
    simp [literalFields, LegibleFields]
  | [(key, v)] => by
    have hcolon : (literalFields [(key, v)]).toList ++ '\x7d' :: rest =
        (quoted key).toList ++ ':' :: ' ' :: (v.literal.toList ++ '\x7d' :: rest) := by
      simp [literalFields]
    rw [hcolon, leads_quoted key (sealed_cons rfl), leads_colon, leads_space,
      leads_literal (sealed_cons rfl) v]
    simp [LegibleFields]
  | (key, v) :: f :: more => by
    have hcolon : (literalFields ((key, v) :: f :: more)).toList ++ '\x7d' :: rest =
        (quoted key).toList ++ ':' :: ' ' :: (v.literal.toList ++ ',' :: ' ' ::
          ((literalFields (f :: more)).toList ++ '\x7d' :: rest)) := by
      simp [literalFields]
    rw [hcolon, leads_quoted key (sealed_cons rfl), leads_colon, leads_space,
      leads_literal (sealed_cons rfl) v, leads_comma, leads_space, leads_literalFields (f :: more)]
    exact and_assoc.symm

end

end

end Value

end Flowgraph
