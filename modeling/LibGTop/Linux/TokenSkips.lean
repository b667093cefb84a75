import LibGTop.Base.MaximalRuns
import LibGTop.Linux.Text

/-!
# Skipping tokens

Where `skip_multiple_token` goes in any text, and what a number is read from there. The tokens of
a text are its maximal runs of bytes that `skip_token` takes as part of a token.
-/

namespace LibGTop.Base

/-- A reading of a text, as one of a longer text that goes on behind it. -/
def readBefore {α : Type} (tail : List UInt8) (read : α × List UInt8) : α × List UInt8 :=
  (read.1, read.2 ++ tail)

/-- The text goes on behind a zero as a hexadecimal prefix and a digit do. -/
def Hexadecimal (text : List UInt8) : Prop :=
  ∃ x d rest, text = x :: d :: rest ∧ isHexMark x = true ∧ isDigitIn 16 d = true

theorem numberBase_ne {b : UInt8} (hb : b ≠ 48) (base : Nat) (rest : List UInt8) :
    numberBase base (b :: rest) = (if base = 0 then 10 else base, b :: rest) := by
  unfold numberBase
  split
  · next he => exact absurd (List.cons.inj he).1 hb
  · next he => exact absurd (List.cons.inj he).1 hb
  · rfl

/-- A zero that is no part of a prefix. -/
theorem numberBase_zero {base : Nat} {rest : List UInt8} (h : ¬Hexadecimal rest) :
    numberBase base (48 :: rest) = (if base = 0 then 8 else base, 48 :: rest) := by
  unfold numberBase
  split
  · next x d more he => rw [if_neg fun hc ↦ h ⟨x, d, more, (List.cons.inj he).2, hc.2⟩]
  · rfl
  · next hn => exact absurd rfl (hn rest)

section

variable {tail : List UInt8}

theorem Stops.head {b : UInt8} {rest : List UInt8} (h : Stops (b :: rest)) :
    b ≠ 48 ∧ isHexMark b = false ∧ isDigitIn 16 b = false := by
  have h36 := (stops_cons b rest).mp h
  refine ⟨?_, ?_, ?_⟩
  · rintro rfl
    exact absurd h36 (by decide)
  · rw [isHexMark, Bool.or_eq_false_iff, decide_eq_false_iff_not, decide_eq_false_iff_not]
    constructor <;> rintro rfl <;> exact absurd h36 (by decide)
  · rw [isDigitIn, decide_eq_false_iff_not]
    omega

/-- A prefix ends before what stops a number. -/
theorem Hexadecimal.of_append {text : List UInt8} (hs : Stops tail)
    (h : Hexadecimal (text ++ tail)) : Hexadecimal text := by
  obtain ⟨x, d, rest, he, hx, hd⟩ := h
  match text, he with
  | [], he =>
    rw [List.nil_append] at he
    subst he
    exact absurd hx (by rw [hs.head.2.1]; exact Bool.false_ne_true)
  | [y], he =>
    have ht : tail = d :: rest := (List.cons.inj he).2
    subst ht
    exact absurd hd (by rw [hs.head.2.2]; exact Bool.false_ne_true)
  | y :: z :: more, he =>
    obtain ⟨hy, he⟩ := List.cons.inj he
    obtain ⟨hz, -⟩ := List.cons.inj he
    exact ⟨y, z, more, rfl, hy ▸ hx, hz ▸ hd⟩

theorem Hexadecimal.append {text : List UInt8} (h : Hexadecimal text) (tail : List UInt8) :
    Hexadecimal (text ++ tail) := by
  obtain ⟨x, d, rest, rfl, hx, hd⟩ := h
  exact ⟨x, d, rest ++ tail, rfl, hx, hd⟩

/-- The base goes by what is before the end of a number. -/
theorem numberBase_append (base : Nat) (text : List UInt8) (hs : Stops tail) :
    numberBase base (text ++ tail) = readBefore tail (numberBase base text) := by
  match text with
  | [] =>
    cases tail with
    | nil => rfl
    | cons b rest => exact numberBase_ne hs.head.1 base rest
  | a :: text =>
    rw [List.cons_append]
    by_cases ha : a = 48
    · subst ha
      by_cases hx : Hexadecimal text
      · obtain ⟨x, d, rest, rfl, hx, hd⟩ := hx
        by_cases hb : base = 0 ∨ base = 16
        · have hc := And.intro hb (And.intro hx hd)
          simp only [List.cons_append, numberBase, if_pos hc, readBefore]
        · have hc : ¬((base = 0 ∨ base = 16) ∧ isHexMark x = true ∧ isDigitIn 16 d = true) :=
            fun h ↦ hb h.1
          simp only [List.cons_append, numberBase, if_neg hc, readBefore]
      · rw [numberBase_zero hx, numberBase_zero (mt (·.of_append hs) hx)]
        rfl
    · rw [numberBase_ne ha, numberBase_ne ha]
      rfl

theorem numberBase_le {base : Nat} (hb : base ≤ 36) (text : List UInt8) :
    (numberBase base text).1 ≤ 36 := by
  unfold numberBase
  repeat' split
  all_goals simp only []
  all_goals omega

/-- Digits are read from what is before the end of a number. -/
theorem scanDigits_append {base : Nat} (hb : base ≤ 36) (negative : Bool) (text : List UInt8)
    (hs : Stops tail) : scanDigits base negative (text ++ tail) =
      (scanDigits base negative text).map fun (sign, read) ↦ (sign, readBefore tail read) := by
  have hr := numberBase_le hb text
  rw [scanDigits, scanDigits, numberBase_append base text hs]
  generalize numberBase base text = found at hr ⊢
  obtain ⟨radix, rest⟩ := found
  obtain ⟨ht, hd⟩ := takeWhile_dropWhile_append rest (hs.noDigit hr)
  simp only [readBefore, ht, hd]
  split <;> rfl

/-- A number is read from what is before its end, if that is not blank. -/
theorem scanNumber_append {base : Nat} (hb : base ≤ 36) {text : List UInt8}
    (ht : ∃ b ∈ text, isSpace b = false) (hs : Stops tail) : scanNumber base (text ++ tail) =
      (scanNumber base text).map fun (sign, read) ↦ (sign, readBefore tail read) := by
  obtain ⟨b, hm, hspace⟩ := ht
  have hne : text.dropWhile isSpace ≠ [] := fun he ↦
    List.not_mem_nil (he ▸ mem_dropWhile hm hspace)
  have hdrop : (text ++ tail).dropWhile isSpace = text.dropWhile isSpace ++ tail := by
    rw [List.dropWhile_append, if_neg (mt List.isEmpty_iff.mp hne)]
  obtain ⟨c, rest, hc⟩ := List.exists_cons_of_ne_nil hne
  rw [scanNumber, scanNumber, hdrop, hc, List.cons_append]
  have hsign := fun negative ↦ scanDigits_append hb negative rest hs
  have hplain := scanDigits_append hb false (c :: rest) hs
  split
  · next he =>
    obtain ⟨rfl, rfl⟩ := List.cons.inj he
    exact hsign true
  · next he =>
    obtain ⟨rfl, rfl⟩ := List.cons.inj he
    exact hsign false
  · next h45 h43 =>
    split
    · next he => exact absurd (congrArg (· ++ tail) he) (h45 _)
    · next he => exact absurd (congrArg (· ++ tail) he) (h43 _)
    · exact hplain

theorem strtol_append {base : Nat} (hb : base ≤ 36) {text : List UInt8}
    (ht : ∃ b ∈ text, isSpace b = false) (hs : Stops tail) :
    strtol base (text ++ tail) = readBefore tail (strtol base text) := by
  rw [strtol, strtol, scanNumber_append hb ht hs]
  cases scanNumber base text <;> rfl

theorem strtoull_append {base : Nat} (hb : base ≤ 36) {text : List UInt8}
    (ht : ∃ b ∈ text, isSpace b = false) (hs : Stops tail) :
    strtoull base (text ++ tail) = readBefore tail (strtoull base text) := by
  rw [strtoull, strtoull, scanNumber_append hb ht hs]
  cases scanNumber base text <;> rfl

end

end LibGTop.Base

namespace LibGTop.Linux

open Base

/-- The tokens of a text. -/
def tokens (text : List UInt8) : List (List UInt8) := runs isTokenByte text

/-- A place in a text where a token starts, or the end of the text. -/
structure TokenStart (before rest : List UInt8) : Prop where
  apart : Apart isTokenByte before rest
  head : ∀ b ∈ rest.head?, isTokenByte b = true

theorem Blank.stops {tail : List UInt8} (h : Blank tail) : Stops tail := by
  intro b hb
  have hbyte := h b hb
  rw [isTokenByte, Bool.and_eq_false_iff, decide_eq_false_iff_not, Bool.not_eq_false',
    ne_eq, not_not] at hbyte
  obtain rfl | hspace := hbyte
  · rfl
  · simp only [gAsciiIsspace, Bool.or_eq_true, decide_eq_true_eq] at hspace
    obtain (((rfl | rfl) | rfl) | rfl) | rfl := hspace <;> rfl

section

variable {s : List UInt8}

theorem isTokenByte_of_blank {b : UInt8} (h : gAsciiIsspace b = true) : isTokenByte b = false := by
  rw [isTokenByte, h, Bool.not_true, Bool.and_false]

theorem notMem_of_suffix {rest : List UInt8} (hs : 0 ∉ s) (h : rest <:+ s) : 0 ∉ rest :=
  fun hm ↦ hs (h.subset hm)

theorem tokens_nextToken (s : List UInt8) : tokens (nextToken s) = tokens s := by
  have hgap : ∀ b ∈ s.takeWhile gAsciiIsspace, isTokenByte b = false := fun b hb ↦
    isTokenByte_of_blank (List.mem_takeWhile_imp hb)
  have hruns := runs_append_of_neg hgap (nextToken s)
  rw [nextToken, List.takeWhile_append_dropWhile] at hruns
  exact hruns.symm

/-- Before the terminator a byte that is not blank is part of a token. -/
theorem nextToken_head (hs : 0 ∉ s) : ∀ b ∈ (nextToken s).head?, isTokenByte b = true := by
  intro b hb
  have hblank := List.head?_dropWhile_not gAsciiIsspace s
  have hm : b ∈ nextToken s := List.mem_of_mem_head? hb
  have hne : b ≠ 0 := fun he ↦ notMem_of_suffix hs (List.dropWhile_suffix _) (he ▸ hm)
  rw [nextToken] at hb
  rw [Option.mem_def.mp hb] at hblank
  rw [isTokenByte, decide_eq_true hne, hblank]
  rfl

/-- `skip_token` drops the first token. -/
theorem tokens_skipToken (hs : 0 ∉ s) : tokens (skipToken s) = (tokens s).drop 1 := by
  rw [skipToken, tokens_nextToken, ← tokens_nextToken s]
  by_cases hn : nextToken s = []
  · rw [hn]
    rfl
  · rw [tokens, tokens, runs_of_head hn (nextToken_head hs)]
    rfl

/-- `skip_token` goes to the start of a token. -/
theorem tokenStart_skipToken (hs : 0 ∉ s) :
    ∃ before, s = before ++ skipToken s ∧ TokenStart before (skipToken s) := by
  let word := (nextToken s).takeWhile isTokenByte
  let rest := (nextToken s).dropWhile isTokenByte
  have hrest : 0 ∉ rest :=
    notMem_of_suffix hs ((List.dropWhile_suffix _).trans (List.dropWhile_suffix _))
  have hgap : Apart isTokenByte (rest.takeWhile gAsciiIsspace) (nextToken rest) :=
    .inl fun b hb ↦ isTokenByte_of_blank (List.mem_takeWhile_imp (List.mem_of_getLast? hb))
  have hword : Apart isTokenByte (s.takeWhile gAsciiIsspace ++ word)
      (rest.takeWhile gAsciiIsspace ++ nextToken rest) := by
    rw [nextToken, List.takeWhile_append_dropWhile]
    exact apart_dropWhile _ _
  refine ⟨s.takeWhile gAsciiIsspace ++ word ++ rest.takeWhile gAsciiIsspace, ?_,
    hword.append hgap, nextToken_head hrest⟩
  have hs' : s.takeWhile gAsciiIsspace ++ nextToken s = s := List.takeWhile_append_dropWhile
  have htoken : word ++ rest = nextToken s := List.takeWhile_append_dropWhile
  have hrest' : rest.takeWhile gAsciiIsspace ++ nextToken rest = rest :=
    List.takeWhile_append_dropWhile
  calc s = s.takeWhile gAsciiIsspace ++ (word ++ rest) := by rw [htoken, hs']
    _ = s.takeWhile gAsciiIsspace ++ (word ++
          (rest.takeWhile gAsciiIsspace ++ nextToken rest)) := by rw [hrest']
    _ = s.takeWhile gAsciiIsspace ++ word ++ rest.takeWhile gAsciiIsspace ++ nextToken rest := by
        simp only [List.append_assoc]

/-- `skip_multiple_token` drops as many tokens, and goes to the start of one. -/
theorem tokenStart_skipMultipleToken (hs : 0 ∉ s) (count : Nat) :
    tokens (skipMultipleToken s (count + 1)) = (tokens s).drop (count + 1) ∧
      ∃ before, s = before ++ skipMultipleToken s (count + 1) ∧
        TokenStart before (skipMultipleToken s (count + 1)) := by
  induction count generalizing s with
  | zero => exact ⟨tokens_skipToken hs, tokenStart_skipToken hs⟩
  | succ count ih =>
    obtain ⟨front, hfront, hstart⟩ := tokenStart_skipToken hs
    have hrest : 0 ∉ skipToken s := notMem_of_suffix hs (skips_skipToken.suffix s)
    obtain ⟨htokens, before, hbefore, hlast⟩ := ih hrest
    rw [skipMultipleToken]
    refine ⟨?_, front ++ before, ?_, ?_, hlast.head⟩
    · rw [htokens, tokens_skipToken hs, List.drop_drop, Nat.add_comm]
    · rw [List.append_assoc, ← hbefore, ← hfront]
    · refine Apart.append ?_ hlast.apart
      rw [← hbefore]
      exact hstart.apart

/-- The helpers of the walk do not go past the terminator. -/
theorem nextToken_append (after : List UInt8) :
    nextToken (s ++ 0 :: after) = nextToken s ++ 0 :: after :=
  (takeWhile_dropWhile_append s (by simp [gAsciiIsspace])).2

theorem skipToken_append (after : List UInt8) :
    skipToken (s ++ 0 :: after) = skipToken s ++ 0 :: after := by
  have h0 : ∀ b ∈ (0 :: after).head?, isTokenByte b = false := by simp [isTokenByte]
  rw [skipToken, nextToken_append, (takeWhile_dropWhile_append _ h0).2, nextToken_append]
  rfl

theorem skipMultipleToken_append (after : List UInt8) (count : Nat) :
    skipMultipleToken (s ++ 0 :: after) count = skipMultipleToken s count ++ 0 :: after := by
  induction count generalizing s with
  | zero => rfl
  | succ count ih => rw [skipMultipleToken, skipToken_append, ih, skipMultipleToken]

theorem skipMultipleToken_add (p : List UInt8) (first second : Nat) :
    skipMultipleToken (skipMultipleToken p first) second =
      skipMultipleToken p (first + second) := by
  induction first generalizing p with
  | zero => rw [Nat.zero_add, skipMultipleToken]
  | succ first ih => rw [Nat.succ_add, skipMultipleToken, skipMultipleToken, ih]

/-- The total of a chain of counts. -/
def chainTotal (chain : List Nat) : Nat := chain.foldr (· + ·) 0

/-- A chain of skips goes where one skip of all its tokens goes. -/
theorem skipMultipleToken_chain (p : List UInt8) (chain : List Nat) :
    chain.foldl skipMultipleToken p = skipMultipleToken p (chainTotal chain) := by
  induction chain generalizing p with
  | nil => rfl
  | cons count chain ih => exact (ih _).trans (skipMultipleToken_add p count _)

/-- Of the bytes of a token only the vertical tab is blank for `strtol`. -/
theorem isSpace_of_isTokenByte {b : UInt8} (h : isTokenByte b = true) (hv : b ≠ 11) :
    isSpace b = false := by
  rw [isTokenByte, Bool.and_eq_true, Bool.not_eq_true'] at h
  simp only [gAsciiIsspace, Bool.or_eq_false_iff, decide_eq_false_iff_not] at h
  obtain ⟨-, ⟨⟨⟨h32, h9⟩, h10⟩, h12⟩, h13⟩ := h
  have hne : ∀ c : UInt8, b ≠ c → b.toNat ≠ c.toNat := fun c hc he ↦ hc (UInt8.toNat_inj.mp he)
  have h9 := hne 9 h9
  have h10 := hne 10 h10
  have h11 := hne 11 hv
  have h12 := hne 12 h12
  have h13 := hne 13 h13
  simp only [isSpace, h32, decide_false, Bool.false_or, Bool.and_eq_false_iff,
    decide_eq_false_iff_not, UInt8.le_iff_toNat_le]
  simp only [UInt8.reduceToNat] at *
  omega

/-- The pointer is in the text, at its first byte behind so many tokens that is part of a token. -/
structure Behind (s : List UInt8) (count : Nat) (p : List UInt8) : Prop where
  place : ∃ before, s = before ++ p ∧ tokens before = (tokens s).take count ∧
    (p ≠ [] → ∀ b ∈ before.getLast?, isTokenByte b = false)
  token : ∀ token ∈ (tokens s)[count]?, ∃ rest, p = token ++ rest ∧ Blank rest
  ended : (tokens s).length ≤ count → p = []

theorem behind_skipMultipleToken (hs : 0 ∉ s) (count : Nat) :
    Behind s (count + 1) (skipMultipleToken s (count + 1)) := by
  obtain ⟨htokens, before, hbefore, hstart⟩ := tokenStart_skipMultipleToken hs count
  generalize skipMultipleToken s (count + 1) = p at htokens hbefore hstart ⊢
  have hall : tokens s = tokens before ++ tokens p := by
    rw [hbefore]
    exact runs_append hstart.apart
  refine ⟨⟨before, hbefore, ?_, fun hp ↦ ?_⟩, fun token htoken ↦ ?_, fun hlen ↦ ?_⟩
  · have hlength := congrArg List.length hall
    rw [htokens, List.length_append, List.length_drop] at hlength
    by_cases hle : count + 1 ≤ (tokens s).length
    · rw [hall, List.take_left' (by omega)]
    · rw [htokens, List.drop_of_length_le (by omega), List.append_nil] at hall
      rw [List.take_of_length_le (by omega), hall]
  · refine hstart.apart.resolve_right fun hno ↦ ?_
    obtain ⟨b, rest, rfl⟩ := List.exists_cons_of_ne_nil hp
    exact Bool.false_ne_true ((hno b rfl).symm.trans (hstart.head b rfl))
  · have hne : p ≠ [] := by
      rintro rfl
      have hlen := List.drop_eq_nil_iff.mp htokens.symm
      rw [Option.mem_def, List.getElem?_eq_none hlen] at htoken
      exact Option.some_ne_none token htoken.symm
    have hfirst : (tokens p).head? = some token := by
      rw [htokens, List.head?_drop]
      exact htoken
    rw [tokens, runs_of_head hne hstart.head, List.head?_cons] at hfirst
    obtain rfl := Option.some.inj hfirst
    refine ⟨p.dropWhile isTokenByte, List.takeWhile_append_dropWhile.symm, fun b hb ↦ ?_⟩
    have hd := List.head?_dropWhile_not isTokenByte p
    rw [Option.mem_def.mp hb] at hd
    exact hd
  · rw [List.drop_of_length_le hlen] at htokens
    by_contra hne
    rw [tokens, runs_of_head hne hstart.head] at htokens
    exact List.cons_ne_nil _ _ htokens

theorem blank_append {rest : List UInt8} (h : Blank rest) (after : List UInt8) :
    Blank (rest ++ 0 :: after) := by
  cases rest with
  | nil => exact blank_cons (by decide) _
  | cons b rest => exact blank_cons (h b rfl) _

/-- In a token of vertical tabs there is no number. -/
theorem scanNumber_verticalTabs {token : List UInt8} (h : ∀ b ∈ token, b = 11) (base : Nat) :
    scanNumber base token = none := by
  have hspace : ∀ b ∈ token, isSpace b = true := by
    intro b hb
    rw [h b hb]
    rfl
  rw [scanNumber, List.dropWhile_eq_nil_iff.mpr hspace]
  rfl

/-- `skip_multiple_token` and every chain of it go behind so many tokens and not past the
terminator, and a number is read from the token there; but `strtol` takes a token of vertical
tabs, in which there is no number, for blanks. -/
theorem skipMultipleToken_behind (hs : 0 ∉ s) {count : Nat} (hc : 1 ≤ count)
    (after : List UInt8) :
    ∃ p, skipMultipleToken (s ++ 0 :: after) count = p ++ 0 :: after ∧ Behind s count p ∧
      (∀ chain, chainTotal chain = count →
        chain.foldl skipMultipleToken (s ++ 0 :: after) = p ++ 0 :: after) ∧
      ∀ token ∈ (tokens s)[count]?, ∀ base ≤ 36,
        ((∀ b ∈ token, b = 11) ∧ scanNumber base token = none) ∨
        ∃ rest, p = token ++ rest ∧
          strtol base (p ++ 0 :: after) =
            ((strtol base token).1, (strtol base token).2 ++ (rest ++ 0 :: after)) ∧
          strtoull base (p ++ 0 :: after) =
            ((strtoull base token).1, (strtoull base token).2 ++ (rest ++ 0 :: after)) := by
  obtain ⟨count, rfl⟩ := Nat.exists_eq_succ_of_ne_zero (Nat.one_le_iff_ne_zero.mp hc)
  have hb := behind_skipMultipleToken hs count
  have hskip := skipMultipleToken_append (s := s) after (count + 1)
  refine ⟨_, hskip, hb, fun chain hchain ↦ ?_, fun token htoken base hbase ↦ ?_⟩
  · rw [skipMultipleToken_chain, hchain, hskip]
  · by_cases hv : ∀ b ∈ token, b = 11
    · exact .inl ⟨hv, scanNumber_verticalTabs hv base⟩
    · obtain ⟨b, hm, hne⟩ := not_forall₂.mp hv
      obtain ⟨rest, hp, hrest⟩ := hb.token token htoken
      have hbytes : ∀ b ∈ token, isTokenByte b = true :=
        of_mem_runs (List.mem_of_getElem? htoken)
      have hspace : ∃ b ∈ token, isSpace b = false :=
        ⟨b, hm, isSpace_of_isTokenByte (hbytes b hm) hne⟩
      have hstops := (blank_append hrest after).stops
      refine .inr ⟨rest, hp, ?_, ?_⟩
      · rw [hp, List.append_assoc]
        exact strtol_append hbase hspace hstops
      · rw [hp, List.append_assoc]
        exact strtoull_append hbase hspace hstops

end

/-- In `" cpu  7 "` the second token is the number. -/
theorem skipMultipleToken_behind_cpu :
    ∃ p, skipMultipleToken ([32, 99, 112, 117, 32, 32, 55, 32] ++ [0, 1]) 1 = p ++ [0, 1] ∧
      ∃ rest, p = [55] ++ rest ∧ (strtol 10 (p ++ [0, 1])).1 = 7 := by
  obtain ⟨p, hp, -, -, hread⟩ := skipMultipleToken_behind
    (s := [32, 99, 112, 117, 32, 32, 55, 32]) (by decide) (Nat.le_refl 1) [1]
  obtain ⟨hv, -⟩ | ⟨rest, hrest, hlong, -⟩ := hread [55] rfl 10 (by decide)
  · exact absurd hv (by decide)
  · exact ⟨p, hp, rest, hrest, by rw [hlong]; rfl⟩

/-- Behind the first token of `a VT 7` not the second token is read, which is the vertical tab, but
the third. -/
theorem skipMultipleToken_past_verticalTab :
    ¬∀ (s : List UInt8), 0 ∉ s → ∀ (after : List UInt8) (count : Nat), 1 ≤ count →
      ∀ token ∈ (tokens s)[count]?,
        (strtol 10 (skipMultipleToken (s ++ 0 :: after) count)).1 = (strtol 10 token).1 := by
  intro h
  have hread := h [97, 32, 11, 32, 55] (by decide) [] 1 (Nat.le_refl 1) [11] rfl
  exact absurd hread (by decide)

end LibGTop.Linux
