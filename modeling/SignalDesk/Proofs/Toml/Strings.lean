import SignalDesk.Toml.Scalar
import SignalDesk.Toml.Writer
import SignalDesk.Proofs.Numeral

/-!
# Strings of TOML

A string in any of its four forms is read back. Basic strings escape whatever they cannot hold, so
they can hold anything. Literal strings are used only for texts that need no escape and have no run
of quotes that would close them.
-/

namespace SignalDesk.Toml

private theorem codePoint?_control {c : Char} (h : needsEscape c = true) :
    ∃ w x y z, (hexDigits 4 c.toNat).map Char.toUpper = [w, x, y, z] ∧
      codePoint? [w, x, y, z] = some c := by
  have hnumber : ∀ n < 128, hexNumber? ((hexDigits 4 n).map Char.toUpper) = some n := by decide
  have hlt : c.toNat < 128 := by
    simp only [needsEscape, Bool.or_eq_true, Bool.and_eq_true, decide_eq_true_eq, beq_iff_eq] at h
    rcases h with ⟨⟨hlow, -⟩, -⟩ | rfl
    · exact Nat.lt_trans (show c.toNat < 32 from hlow) (by decide)
    · decide
  refine ⟨_, _, _, _, rfl, ?_⟩
  have hvalid : c.toNat.isValidChar := c.valid
  show (hexNumber? ((hexDigits 4 c.toNat).map Char.toUpper)).bind _ = _
  rw [hnumber _ hlt, Option.bind_some, if_pos hvalid, Char.ofNat_toNat]
  rfl

private theorem isPrintable_of_not_needsEscape {c : Char} (h : needsEscape c = false)
    (hbreak : c ≠ '\n') : isPrintable c = true := by
  by_cases htab : c = '\t'
  · rw [htab]
    rfl
  · simp only [needsEscape, Bool.or_eq_false_iff, Bool.and_eq_false_iff, decide_eq_false_iff_not,
      beq_eq_false_iff_ne, bne_eq_false_iff_eq, htab, hbreak, or_false] at h
    obtain ⟨hlow, hdelete⟩ := h
    have hge : 0x20 ≤ c.toNat := Nat.le_of_not_lt hlow
    have hne : c.toNat ≠ 0x7f := fun heq => hdelete (Char.toNat_inj.1 heq)
    simp [isPrintable, hge, hne]

/-- A reader of the inside of a string that understands escapes. -/
structure ReadsEscapes (read : List Char → Option (List Char × List Char)) : Prop where
  plain {c : Char} (rest : List Char) (hprintable : isPrintable c = true) (hquote : c ≠ '"')
    (hslash : c ≠ '\\') : read (c :: rest) = (read rest).map (consChar c)
  short {name c : Char} (rest : List Char) (h : shortEscape? name = some c) :
    read ('\\' :: name :: rest) = (read rest).map (consChar c)
  code {w x y z c : Char} (rest : List Char) (h : codePoint? [w, x, y, z] = some c) :
    read ('\\' :: 'u' :: w :: x :: y :: z :: rest) = (read rest).map (consChar c)

theorem ReadsEscapes.escape {read : List Char → Option (List Char × List Char)}
    (h : ReadsEscapes read) {c : Char} (hquote : c ≠ '"') (rest : List Char) :
    read ((escape? c).getD [c] ++ rest) = (read rest).map (consChar c) := by
  unfold escape?
  split
  · exact h.short rest rfl
  · exact h.short rest rfl
  · exact h.short rest rfl
  · exact h.short rest rfl
  · exact h.short rest rfl
  · exact h.short rest rfl
  · rename_i hbreak _ _ hslash
    split
    · rename_i hcoded
      obtain ⟨w, x, y, z, hdigits, hcode⟩ := codePoint?_control hcoded
      rw [hdigits]
      exact h.code rest hcode
    · rename_i hcoded
      have hprintable := isPrintable_of_not_needsEscape (by simpa using hcoded) hbreak
      exact h.plain rest hprintable hquote hslash

private theorem shortEscape?_ne {name c : Char} (h : shortEscape? name = some c) :
    name ≠ 'u' ∧ name ≠ 'U' := by
  constructor
  · rintro rfl
    cases h
  · rintro rfl
    cases h

private theorem readsEscapes_readBasic? : ReadsEscapes readBasic? where
  plain {c} rest hprintable hquote hslash := by
    rw [readBasic?]
    · simp only [hprintable, bne_iff_ne.2 hslash, Bool.and_self, if_true]
      cases readBasic? rest <;> rfl
    · simpa using hquote
    all_goals simp [hslash]
  short {name c} rest h := by
    obtain ⟨hu, hU⟩ := shortEscape?_ne h
    rw [readBasic?, h]
    · cases readBasic? rest <;> rfl
    all_goals simp [hu, hU]
  code {w x y z c} rest h := by
    rw [readBasic?, h]
    cases readBasic? rest <;> rfl

private theorem joinsLines_of_shortEscape {name c : Char} (h : shortEscape? name = some c)
    (rest : List Char) : joinsLines (name :: rest) = false := by
  unfold shortEscape? at h
  split at h
  all_goals first | rfl | cases h

private theorem readBasicLines?_plain {c : Char} (hc : isPrintable c = true ∧ c ≠ '\\' ∨ c = '\n')
    {text : List Char} (hquotes : c = '"' → ∀ rest, text ≠ '"' :: '"' :: rest) :
    readBasicLines? false (c :: text) = (readBasicLines? false text).map (consChar c) := by
  have hreturn : c ≠ '\r' := by
    rintro rfl
    rcases hc with ⟨hc, -⟩ | hc <;> cases hc
  have hslash : c ≠ '\\' := by
    rintro rfl
    rcases hc with ⟨-, hc⟩ | hc
    · exact hc rfl
    · cases hc
  have hallowed : (isPrintable c && c != '\\' || c == '\n') = true := by simpa using hc
  rw [readBasicLines?]
  · simp only [hallowed, Bool.false_and, if_true, Bool.false_eq_true, if_false]
    cases readBasicLines? false text <;> rfl
  all_goals simp [hslash, hreturn]
  all_goals
    intro rest hquote htext
    exact hquotes hquote _ htext

private theorem readsEscapes_readBasicLines? : ReadsEscapes (readBasicLines? false) where
  plain rest hprintable hquote hslash :=
    readBasicLines?_plain (.inl ⟨hprintable, hslash⟩) fun heq => absurd heq hquote
  short {name c} rest h := by
    obtain ⟨hu, hU⟩ := shortEscape?_ne h
    rw [readBasicLines?, joinsLines_of_shortEscape h, h]
    · cases readBasicLines? false rest <;> rfl
    all_goals simp [hu, hU]
  code {w x y z c} rest h := by
    rw [readBasicLines?, h]
    cases readBasicLines? false rest <;> rfl

/-- What is written for a character other than a quote. -/
def written (keepBreaks : Bool) (c : Char) : List Char :=
  if c = '\n' ∧ keepBreaks then [c] else (escape? c).getD [c]

private theorem basicBody_cons {c : Char} (hquote : c ≠ '"') (bare : Nat) (keepBreaks : Bool)
    (run : Nat) (text : List Char) :
    basicBody bare keepBreaks run (c :: text) =
      written keepBreaks c ++ basicBody bare keepBreaks 0 text := by
  rw [basicBody]
  · unfold written
    split <;> rfl
  · simpa using hquote

private theorem basicBody_bare {bare run : Nat} (h : run < bare) (keepBreaks : Bool)
    (text : List Char) : basicBody bare keepBreaks run ('"' :: text) =
      '"' :: basicBody bare keepBreaks (run + 1) text :=
  if_pos h

private theorem basicBody_escaped {bare run : Nat} (h : ¬ run < bare) (keepBreaks : Bool)
    (text : List Char) :
    basicBody bare keepBreaks run ('"' :: text) =
      '\\' :: '"' :: basicBody bare keepBreaks 0 text :=
  if_neg h

private theorem written_eq_cons (keepBreaks : Bool) (c : Char) :
    ∃ d text, written keepBreaks c = d :: text ∧ (d = c ∨ d = '\\') := by
  unfold written escape?
  split
  · exact ⟨c, [], rfl, .inl rfl⟩
  · split
    all_goals first
      | exact ⟨'\\', _, rfl, .inr rfl⟩
      | skip
    split
    · exact ⟨'\\', _, rfl, .inr rfl⟩
    · exact ⟨c, [], rfl, .inl rfl⟩

private theorem basicBody_eq_cons (bare run : Nat) (c : Char) (h : c = '"' → ¬ run < bare)
    (keepBreaks : Bool) (text : List Char) :
    ∃ d rest, basicBody bare keepBreaks run (c :: text) = d :: rest ∧ d ≠ '"' ∧
      (d = c ∨ d = '\\') := by
  by_cases hquote : c = '"'
  · subst hquote
    exact ⟨'\\', _, basicBody_escaped (h rfl) keepBreaks text, by decide, .inr rfl⟩
  · obtain ⟨d, rest, hwritten, hd⟩ := written_eq_cons keepBreaks c
    refine ⟨d, rest ++ basicBody bare keepBreaks 0 text, ?_, ?_, hd⟩
    · rw [basicBody_cons hquote, hwritten]
      rfl
    · rcases hd with rfl | rfl
      · exact hquote
      · decide

private theorem readBasic?_basicBody (text rest : List Char) :
    readBasic? (basicBody 0 false 0 text ++ '"' :: rest) = some (text, rest) := by
  induction text with
  | nil => rfl
  | cons c text ih =>
    by_cases hquote : c = '"'
    · subst hquote
      rw [basicBody_escaped (Nat.lt_irrefl 0), List.cons_append, List.cons_append,
        readsEscapes_readBasic?.short (c := '"') _ rfl, ih]
      rfl
    · have hwritten : written false c = (escape? c).getD [c] := if_neg (by simp)
      rw [basicBody_cons hquote, hwritten, List.append_assoc,
        readsEscapes_readBasic?.escape hquote, ih]
      rfl

/-- Up to two quotes before the three that close a string of several lines are part of it. -/
structure Closes (read : List Char → Option (List Char × List Char)) (quote : Char)
    (rest : List Char) : Prop where
  none : read (quote :: quote :: quote :: rest) = some ([], rest)
  one : read (quote :: quote :: quote :: quote :: rest) = some ([quote], rest)
  two : read (quote :: quote :: quote :: quote :: quote :: rest) = some ([quote, quote], rest)

def closingQuotes : List Char := ['"', '"', '"']

private theorem readBasicLines?_written {c : Char} (hquote : c ≠ '"') (rest : List Char) :
    readBasicLines? false (written true c ++ rest) =
      (readBasicLines? false rest).map (consChar c) := by
  unfold written
  split
  · rename_i hbreak
    rw [hbreak.1]
    exact readBasicLines?_plain (.inr rfl) nofun
  · exact readsEscapes_readBasicLines?.escape hquote rest

private theorem readBasicLines?_closes {rest : List Char} (h : rest.head? ≠ some '"') :
    Closes (readBasicLines? false) '"' rest := by
  cases rest with
  | nil => exact ⟨rfl, rfl, rfl⟩
  | cons c rest =>
    have hc : c ≠ '"' := fun heq => h (congrArg some heq)
    constructor
    · rw [readBasicLines?] <;> simp [hc]
    · rw [readBasicLines?]
      simp [hc]
    · rw [readBasicLines?]

private theorem basicBody_ne_quotes {run : Nat} {text : List Char} (hne : text ≠ [])
    (hlast : run = 1 → text ≠ ['"']) (hrun : 0 < run) (rest : List Char) :
    ∀ tail, basicBody 2 true run text ++ closingQuotes ++ rest ≠ '"' :: '"' :: tail := by
  intro tail heq
  obtain ⟨c, text, rfl⟩ := List.exists_cons_of_ne_nil hne
  by_cases hbare : c = '"' ∧ run < 2
  · obtain ⟨rfl, hlt⟩ := hbare
    obtain rfl : run = 1 := by omega
    rw [basicBody_bare hlt] at heq
    cases text with
    | nil => exact hlast rfl rfl
    | cons d text =>
      obtain ⟨x, body, hbody, hx, -⟩ :=
        basicBody_eq_cons 2 (1 + 1) d (fun _ => by decide) true text
      rw [hbody] at heq
      exact hx (List.cons.inj (List.cons.inj heq).2).1
  · obtain ⟨x, body, hbody, hx, -⟩ :=
      basicBody_eq_cons 2 run c (fun h hlt => hbare ⟨h, hlt⟩) true text
    rw [hbody] at heq
    exact hx (List.cons.inj heq).1

private theorem readBasicLines?_basicBody {text rest : List Char} (h : rest.head? ≠ some '"')
    (run : Nat) : readBasicLines? false (basicBody 2 true run text ++ closingQuotes ++ rest) =
      some (text, rest) := by
  induction text generalizing run with
  | nil => exact (readBasicLines?_closes h).none
  | cons c text ih =>
    by_cases hquote : c = '"'
    · subst hquote
      by_cases hbare : run < 2
      · rw [basicBody_bare hbare]
        by_cases hnil : text = []
        · rw [hnil]
          exact (readBasicLines?_closes h).one
        · by_cases hlast : run + 1 = 1 ∧ text = ['"']
          · obtain ⟨hrun, rfl⟩ := hlast
            rw [hrun]
            exact (readBasicLines?_closes h).two
          · have hquotes := basicBody_ne_quotes hnil (fun hrun htext => hlast ⟨hrun, htext⟩)
              (Nat.succ_pos run) rest
            rw [List.cons_append, List.cons_append,
              readBasicLines?_plain (.inl ⟨rfl, by decide⟩) fun _ => hquotes, ih]
            rfl
      · rw [basicBody_escaped hbare, List.cons_append, List.cons_append, List.cons_append,
          List.cons_append, readsEscapes_readBasicLines?.short (c := '"') _ rfl, ih]
        rfl
    · rw [basicBody_cons hquote, List.append_assoc, List.append_assoc, readBasicLines?_written hquote,
        ← List.append_assoc, ih]
      rfl

private theorem readLiteral?_append {text : List Char} (hprintable : ∀ c ∈ text, isPrintable c = true)
    (hquote : '\x27' ∉ text) (rest : List Char) :
    readLiteral? (text ++ '\x27' :: rest) = some (text, rest) := by
  induction text with
  | nil => rfl
  | cons c text ih =>
    rw [List.mem_cons, not_or] at hquote
    have hc : isPrintable c = true := hprintable c List.mem_cons_self
    rw [List.cons_append, readLiteral?]
    · simp only [hc, if_true]
      rw [ih (fun d hd => hprintable d (List.mem_cons_of_mem c hd)) hquote.2]
      rfl
    · exact fun heq => hquote.1 heq.symm

private theorem readLiteralLines?_plain {c : Char} (hc : isPrintable c = true ∨ c = '\n')
    {text : List Char} (hquotes : c = '\x27' → ∀ rest, text ≠ '\x27' :: '\x27' :: rest) :
    readLiteralLines? (c :: text) = (readLiteralLines? text).map (consChar c) := by
  have hreturn : c ≠ '\r' := by
    rintro rfl
    rcases hc with hc | hc <;> cases hc
  have hallowed : (isPrintable c || c == '\n') = true := by simpa using hc
  rw [readLiteralLines?]
  · simp only [hallowed, if_true]
    cases readLiteralLines? text <;> rfl
  all_goals simp [hreturn]
  all_goals
    intro rest hquote htext
    exact hquotes hquote _ htext

def closingApostrophes : List Char := ['\x27', '\x27', '\x27']

private theorem readLiteralLines?_closes {rest : List Char} (h : rest.head? ≠ some '\x27') :
    Closes readLiteralLines? '\x27' rest := by
  cases rest with
  | nil => exact ⟨rfl, rfl, rfl⟩
  | cons c rest =>
    have hc : c ≠ '\x27' := fun heq => h (congrArg some heq)
    constructor
    · rw [readLiteralLines?] <;> simp [hc]
    · rw [readLiteralLines?]
      simp [hc]
    · rw [readLiteralLines?]

private theorem readLiteralLines?_append {text rest : List Char}
    (hallowed : ∀ c ∈ text, isPrintable c = true ∨ c = '\n')
    (hrun : ¬ closingApostrophes <:+: text) (h : rest.head? ≠ some '\x27') :
    readLiteralLines? (text ++ closingApostrophes ++ rest) = some (text, rest) := by
  induction text with
  | nil => exact (readLiteralLines?_closes h).none
  | cons c text ih =>
    have hc := hallowed c List.mem_cons_self
    have htail := ih (fun d hd => hallowed d (List.mem_cons_of_mem c hd))
      (fun hinfix => hrun (List.infix_cons hinfix))
    have hplain (hquotes : c = '\x27' →
        ∀ tail, text ++ closingApostrophes ++ rest ≠ '\x27' :: '\x27' :: tail) :
        readLiteralLines? (c :: text ++ closingApostrophes ++ rest) = some (c :: text, rest) := by
      rw [List.cons_append, List.cons_append, readLiteralLines?_plain hc hquotes, htail]
      rfl
    by_cases hquote : c = '\x27'
    · subst hquote
      match text with
      | [] => exact (readLiteralLines?_closes h).one
      | [d] =>
        by_cases hd : d = '\x27'
        · subst hd
          exact (readLiteralLines?_closes h).two
        · exact hplain fun _ tail heq => hd (List.cons.inj heq).1
      | d :: b :: text =>
        apply hplain
        rintro - tail heq
        obtain ⟨rfl, hnext⟩ := List.cons.inj heq
        obtain ⟨rfl, -⟩ := List.cons.inj hnext
        exact hrun ⟨[], text, rfl⟩
    · exact hplain fun heq => absurd heq hquote

/-- The longest and the current run of a character after one more character. -/
def runStep (c : Char) : Nat × Nat → Char → Nat × Nat := fun (longest, current) d =>
  let current := if d = c then current + 1 else 0
  (max longest current, current)

private theorem longestRun_eq (c : Char) (text : List Char) :
    longestRun c text = (text.foldl (runStep c) (0, 0)).1 := rfl

private theorem le_foldl_runStep (c : Char) (text : List Char) (runs : Nat × Nat) :
    runs.1 ≤ (text.foldl (runStep c) runs).1 := by
  induction text generalizing runs with
  | nil => exact Nat.le_refl _
  | cons d text ih => exact (Nat.le_max_left _ _).trans (ih (runStep c runs d))

private theorem current_le_longest (c : Char) (text : List Char) {runs : Nat × Nat}
    (h : runs.2 ≤ runs.1) : (text.foldl (runStep c) runs).2 ≤ (text.foldl (runStep c) runs).1 := by
  induction text generalizing runs with
  | nil => exact h
  | cons d text ih => exact ih (Nat.le_max_right _ _)

private theorem current_replicate (c : Char) (n : Nat) (runs : Nat × Nat) :
    ((List.replicate n c).foldl (runStep c) runs).2 = runs.2 + n := by
  induction n generalizing runs with
  | zero => rfl
  | succ n ih =>
    have hstep : (runStep c runs c).2 = runs.2 + 1 := if_pos rfl
    rw [List.replicate_succ, List.foldl_cons, ih, hstep]
    omega

private theorem le_longestRun {c : Char} {n : Nat} {text : List Char}
    (h : List.replicate n c <:+: text) : n ≤ longestRun c text := by
  obtain ⟨before, after, rfl⟩ := h
  rw [longestRun_eq, List.foldl_append, List.foldl_append]
  have hlast := le_foldl_runStep c after
    ((List.replicate n c).foldl (runStep c) (before.foldl (runStep c) (0, 0)))
  have hcurrent := current_replicate c n (before.foldl (runStep c) (0, 0))
  have hstart : ((0, 0) : Nat × Nat).2 ≤ ((0, 0) : Nat × Nat).1 := Nat.le_refl 0
  have hlongest := current_le_longest c (List.replicate n c) (current_le_longest c before hstart)
  omega

private theorem literal_of_formOf {text : List Char} (h : formOf text = .literal) :
    text.any needsEscape = false ∧ longestRun '\x27' text = 0 ∧ '\n' ∉ text := by
  unfold formOf at h
  simp only at h
  split at h
  · cases h
  · split at h
    · rename_i hform
      simp only [Bool.and_eq_true, Bool.not_eq_true', decide_eq_true_eq, List.contains_eq_mem,
        decide_eq_false_iff_not] at hform
      exact ⟨hform.1.1, hform.1.2, hform.2⟩
    · split at h
      · cases h
      · split at h
        · cases h
        · split at h <;> cases h

private theorem literalLines_of_formOf {text : List Char} (h : formOf text = .literalLines) :
    text.any needsEscape = false ∧ longestRun '\x27' text ≤ 2 := by
  unfold formOf at h
  simp only at h
  split at h
  · cases h
  · split at h
    · cases h
    · split at h
      · cases h
      · split at h
        · rename_i hform
          simp only [Bool.and_eq_true, Bool.not_eq_true', decide_eq_true_eq] at hform
          exact hform
        · split at h <;> cases h

private theorem isPrintable_of_plain {text : List Char} (h : text.any needsEscape = false) {c : Char}
    (hc : c ∈ text) : isPrintable c = true ∨ c = '\n' := by
  by_cases hbreak : c = '\n'
  · exact .inr hbreak
  · have hplain : needsEscape c = false := by simpa using List.any_eq_false.1 h c hc
    exact .inl (isPrintable_of_not_needsEscape hplain hbreak)

private theorem firstLine_of_head? {text : List Char} (hbreak : text.head? ≠ some '\n')
    (hreturn : text.head? ≠ some '\r') : firstLine text = text := by
  unfold firstLine afterNewline?
  split
  · exact absurd rfl hbreak
  · exact absurd rfl hreturn
  · rfl

private theorem firstLine_openingBreak {text body : List Char}
    (h : '\n' ∉ text → body.head? ≠ some '\n' ∧ body.head? ≠ some '\r') :
    firstLine (openingBreak text ++ body) = body := by
  unfold openingBreak
  split
  · rfl
  · rename_i hbroken
    obtain ⟨hbreak, hreturn⟩ := h (by simpa using hbroken)
    exact firstLine_of_head? hbreak hreturn

private theorem head?_basicBody {text : List Char} (h : '\n' ∉ text) (rest : List Char) :
    let body := basicBody 2 true 0 text ++ closingQuotes ++ rest
    body.head? ≠ some '\n' ∧ body.head? ≠ some '\r' := by
  cases text with
  | nil => simp [basicBody, closingQuotes]
  | cons c text =>
    by_cases hquote : c = '"'
    · subst hquote
      rw [basicBody_bare (by decide)]
      exact ⟨by simp, by simp⟩
    · have hwritten : ∃ d tail, written true c = d :: tail ∧ d ≠ '\n' ∧ d ≠ '\r' := by
        have hc : c ≠ '\n' := fun heq => h (heq ▸ List.mem_cons_self)
        obtain ⟨d, tail, hd, hor⟩ := written_eq_cons true c
        refine ⟨d, tail, hd, ?_, ?_⟩
        · rcases hor with rfl | rfl
          · exact hc
          · decide
        · rintro rfl
          rcases hor with rfl | hslash
          · cases hd
          · cases hslash
      obtain ⟨d, tail, hd, hbreak, hreturn⟩ := hwritten
      rw [basicBody_cons hquote, hd]
      exact ⟨by simpa using hbreak, by simpa using hreturn⟩

private theorem head?_literal {text : List Char} (hplain : text.any needsEscape = false)
    (h : '\n' ∉ text) (rest : List Char) :
    let body := text ++ closingApostrophes ++ rest
    body.head? ≠ some '\n' ∧ body.head? ≠ some '\r' := by
  cases text with
  | nil => simp [closingApostrophes]
  | cons c text =>
    have hc : c ≠ '\n' := fun heq => h (heq ▸ List.mem_cons_self)
    refine ⟨by simpa using hc, ?_⟩
    have hprintable := (isPrintable_of_plain hplain List.mem_cons_self).resolve_right hc
    have hreturn : c ≠ '\r' := by
      rintro rfl
      cases hprintable
    simpa using hreturn

private theorem readString?_basic {text : List Char} (h : ∀ rest, text ≠ '"' :: '"' :: rest) :
    readString? ('"' :: text) = readBasic? text := by
  rw [readString?]
  exact fun rest heq => h rest heq

private theorem readString?_literal {text : List Char} (h : ∀ rest, text ≠ '\x27' :: '\x27' :: rest) :
    readString? ('\x27' :: text) = readLiteral? text := by
  rw [readString?]
  exact fun rest heq => h rest heq

section Forms

variable {text rest : List Char}

private theorem readString?_basicForm (hquote : rest.head? ≠ some '"') :
    readString? ('"' :: basicBody 0 false 0 text ++ ['"'] ++ rest) = some (text, rest) := by
  have hbody : ∀ tail, basicBody 0 false 0 text ++ '"' :: rest ≠ '"' :: '"' :: tail := by
    intro tail heq
    cases text with
    | nil => exact hquote (by rw [(List.cons.inj heq).2]; rfl)
    | cons c text =>
      obtain ⟨d, body, hbody, hd, -⟩ := basicBody_eq_cons 0 0 c (fun _ => by decide) false text
      rw [hbody] at heq
      exact hd (List.cons.inj heq).1
  rw [List.append_assoc, List.cons_append, List.singleton_append, readString?_basic hbody,
    readBasic?_basicBody]

private theorem readString?_literalForm (hform : formOf text = .literal)
    (happostrophe : rest.head? ≠ some '\x27') :
    readString? ('\x27' :: text ++ ['\x27'] ++ rest) = some (text, rest) := by
  obtain ⟨hplain, hrun, hbreak⟩ := literal_of_formOf hform
  have hnone : '\x27' ∉ text := by
    intro hmem
    obtain ⟨before, after, heq⟩ := List.append_of_mem hmem
    have hone : List.replicate 1 '\x27' <:+: text := ⟨before, after, by simp [heq]⟩
    have := le_longestRun hone
    omega
  have hbody : ∀ tail, text ++ '\x27' :: rest ≠ '\x27' :: '\x27' :: tail := by
    intro tail heq
    cases text with
    | nil => exact happostrophe (by rw [(List.cons.inj heq).2]; rfl)
    | cons c text => exact hnone ((List.cons.inj heq).1 ▸ List.mem_cons_self)
  rw [List.append_assoc, List.cons_append, List.singleton_append, readString?_literal hbody]
  apply readLiteral?_append _ hnone
  intro c hc
  have hnobreak : c ≠ '\n' := by
    rintro rfl
    exact hbreak hc
  exact (isPrintable_of_plain hplain hc).resolve_right hnobreak

private theorem readString?_basicLinesForm (hquote : rest.head? ≠ some '"') :
    readString? (['"', '"', '"'] ++ openingBreak text ++ basicBody 2 true 0 text ++ ['"', '"', '"'] ++
      rest) = some (text, rest) := by
  have hsplit : ['"', '"', '"'] ++ openingBreak text ++ basicBody 2 true 0 text ++ ['"', '"', '"'] ++
      rest = '"' :: '"' :: '"' ::
        (openingBreak text ++ (basicBody 2 true 0 text ++ closingQuotes ++ rest)) := by
    simp [closingQuotes]
  rw [hsplit, readString?, firstLine_openingBreak fun hbreak => head?_basicBody hbreak rest]
  exact readBasicLines?_basicBody hquote 0

private theorem readString?_literalLinesForm (hform : formOf text = .literalLines)
    (happostrophe : rest.head? ≠ some '\x27') :
    readString? (['\x27', '\x27', '\x27'] ++ openingBreak text ++ text ++ ['\x27', '\x27', '\x27'] ++
      rest) = some (text, rest) := by
  obtain ⟨hplain, hrun⟩ := literalLines_of_formOf hform
  have hsplit : ['\x27', '\x27', '\x27'] ++ openingBreak text ++ text ++ ['\x27', '\x27', '\x27'] ++
      rest = '\x27' :: '\x27' :: '\x27' ::
        (openingBreak text ++ (text ++ closingApostrophes ++ rest)) := by
    simp [closingApostrophes]
  rw [hsplit, readString?, firstLine_openingBreak fun hbreak => head?_literal hplain hbreak rest]
  apply readLiteralLines?_append (fun c hc => isPrintable_of_plain hplain hc) _ happostrophe
  intro hinfix
  have hthree : 3 ≤ longestRun '\x27' text := le_longestRun hinfix
  omega

end Forms

theorem readString?_writeString (s : String) {rest : List Char} (hquote : rest.head? ≠ some '"')
    (happostrophe : rest.head? ≠ some '\x27') :
    readString? (writeString s ++ rest) = some (s.toList, rest) := by
  unfold writeString
  simp only
  split
  · exact readString?_basicForm hquote
  · rename_i hform
    exact readString?_literalForm hform happostrophe
  · exact readString?_basicLinesForm hquote
  · rename_i hform
    exact readString?_literalLinesForm hform happostrophe

end SignalDesk.Toml
