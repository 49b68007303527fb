import SignalDesk.Proofs.Toml.Scalars

/-!
# Statements of TOML

A written document is read line by line: its headers open tables, its pairs are scalars under bare
keys, and the blank lines between sections are passed over.
-/

namespace SignalDesk.Toml

/-- A key that needs no quotes. -/
structure Bare (key : String) : Prop where
  ne_nil : key.toList ≠ []
  chars : ∀ c ∈ key.toList, isBareKeyChar c = true

def dotted : List String → List Char
  | [] => []
  | [key] => key.toList
  | key :: other :: path => key.toList ++ '.' :: dotted (other :: path)

private theorem Bare.exists_cons {key : String} (h : Bare key) :
    ∃ c text, key.toList = c :: text ∧ isBareKeyChar c = true := by
  obtain ⟨c, text, heq⟩ := List.exists_cons_of_ne_nil h.ne_nil
  exact ⟨c, text, heq, h.chars c (heq ▸ List.mem_cons_self)⟩

private theorem skipSpaces_of_bare {c : Char} (h : isBareKeyChar c = true) (text : List Char) :
    skipSpaces (c :: text) = c :: text := by
  have hspace : isSpace c = false := by
    by_contra hc
    rw [Bool.not_eq_false, isSpace, Bool.or_eq_true, beq_iff_eq, beq_iff_eq] at hc
    rcases hc with rfl | rfl <;> cases h
  exact List.dropWhile_cons_of_neg (by simp [hspace])

private theorem readSimpleKey?_bare {key : String} (h : Bare key) {rest : List Char}
    (hrest : NotNext isBareKeyChar rest) :
    readSimpleKey? (key.toList ++ rest) = some (key, rest) := by
  obtain ⟨c, text, hkey, hc⟩ := h.exists_cons
  have hspan := span_append h.chars hrest
  have hquote : c ≠ '"' := by rintro rfl; cases hc
  have happostrophe : c ≠ '\x27' := by rintro rfl; cases hc
  rw [hkey, List.cons_append] at hspan ⊢
  unfold readSimpleKey?
  split
  · rename_i heq
    exact absurd (List.cons.inj heq).1 hquote
  · rename_i heq
    exact absurd (List.cons.inj heq).1 happostrophe
  · simp only [hspan]
    rw [← hkey, if_neg (by simpa using h.ne_nil), String.ofList_toList]
    rfl

private theorem readDotted?_dotted {path : List String} (hpath : path ≠ [])
    (hbare : ∀ key ∈ path, Bare key) {fuel : Nat} (hfuel : path.length ≤ fuel) {rest : List Char}
    (hrest : NotNext isBareKeyChar rest) (hmark : ∀ tail, skipSpaces rest ≠ '.' :: tail) :
    readDotted? fuel (dotted path ++ rest) = some (path, skipSpaces rest) := by
  induction path generalizing fuel with
  | nil => exact absurd rfl hpath
  | cons key path ih =>
    obtain ⟨fuel, rfl⟩ := Nat.exists_eq_succ_of_ne_zero (by simp at hfuel; omega : fuel ≠ 0)
    have hkey := hbare key List.mem_cons_self
    obtain ⟨c, text, htext, hc⟩ := hkey.exists_cons
    have hskip (rest : List Char) : skipSpaces (key.toList ++ rest) = key.toList ++ rest := by
      rw [htext, List.cons_append, skipSpaces_of_bare hc]
    cases path with
    | nil =>
      rw [dotted, readDotted?, hskip, readSimpleKey?_bare hkey hrest]
      simp only [Option.bind_eq_bind, Option.bind_some]
      rfl
    | cons other path =>
      have hdot : NotNext isBareKeyChar ('.' :: (dotted (other :: path) ++ rest)) := notNext_cons rfl
      have hread := ih (List.cons_ne_nil _ _) (fun k hk => hbare k (List.mem_cons_of_mem _ hk))
        (Nat.le_of_succ_le_succ hfuel)
      rw [dotted, List.append_assoc, List.cons_append, readDotted?, hskip,
        readSimpleKey?_bare hkey hdot]
      have hplain : skipSpaces ('.' :: (dotted (other :: path) ++ rest)) =
          '.' :: (dotted (other :: path) ++ rest) := rfl
      simp only [Option.bind_eq_bind, Option.bind_some, hplain, hread]
      rfl

private theorem dotted_eq_cons {path : List String} (hpath : path ≠ [])
    (hbare : ∀ key ∈ path, Bare key) :
    ∃ c text, dotted path = c :: text ∧ isBareKeyChar c = true := by
  obtain ⟨key, path, rfl⟩ := List.exists_cons_of_ne_nil hpath
  obtain ⟨c, text, htext, hc⟩ := (hbare key List.mem_cons_self).exists_cons
  cases path with
  | nil => exact ⟨c, text, htext, hc⟩
  | cons other path => exact ⟨c, _, by rw [dotted, htext]; rfl, hc⟩

private theorem readStatement?_header {path : List String} (hpath : path ≠ [])
    (hbare : ∀ key ∈ path, Bare key) (hlength : path.length < depthLimit) (rest : List Char) :
    readStatement? ('[' :: (dotted path ++ ']' :: '\n' :: rest)) = some (.table path, rest) := by
  obtain ⟨c, text, htext, hc⟩ := dotted_eq_cons hpath hbare
  have hbracket : c ≠ '[' := by rintro rfl; cases hc
  have hmark : ∀ tail, skipSpaces (']' :: '\n' :: rest) ≠ '.' :: tail := by
    intro tail heq
    cases (List.cons.inj heq).1
  have hread : readKey? (dotted path ++ ']' :: '\n' :: rest) = some (path, ']' :: '\n' :: rest) :=
    readDotted?_dotted hpath hbare (Nat.le_sub_one_of_lt hlength) (notNext_cons rfl) hmark
  have hline : afterLine? ('\n' :: rest) = some rest := rfl
  rw [htext, List.cons_append] at hread ⊢
  unfold readStatement?
  split
  · rename_i heq
    exact absurd (List.cons.inj (List.cons.inj heq).2).1 hbracket
  · rename_i heq
    cases heq
    rw [hread]
    simp only [Option.bind_eq_bind, Option.bind_some, afterChar?, if_true, hline]
    rfl
  · rename_i hnone
    exact absurd rfl (hnone _)

private theorem readStatement?_pair {key : String} (hkey : Bare key) {s : Scalar} {text : List Char}
    (h : writeScalar? s = some text) (rest : List Char) :
    readStatement? (key.toList ++ [' ', '=', ' '] ++ text ++ '\n' :: rest) =
      some (.pair [key] (Config.scalarData s), rest) := by
  obtain ⟨c, tail, htext, hc⟩ := hkey.exists_cons
  have hbracket : c ≠ '[' := by rintro rfl; cases hc
  have hspace : skipSpaces (text ++ '\n' :: rest) = text ++ '\n' :: rest :=
    skipSpaces_writeScalar? h _
  have hsplit : key.toList ++ [' ', '=', ' '] ++ text ++ '\n' :: rest =
      key.toList ++ ' ' :: '=' :: ' ' :: (text ++ '\n' :: rest) := by
    simp
  have hmark : ∀ tail, skipSpaces (' ' :: '=' :: ' ' :: (text ++ '\n' :: rest)) ≠ '.' :: tail := by
    intro tail heq
    cases (List.cons.inj heq).1
  have hread : readKey? (key.toList ++ ' ' :: '=' :: ' ' :: (text ++ '\n' :: rest)) =
      some ([key], '=' :: ' ' :: (text ++ '\n' :: rest)) :=
    readDotted?_dotted (List.cons_ne_nil key []) (by simpa using hkey)
      (show 1 ≤ depthLimit - 1 by decide) (notNext_cons rfl) hmark
  have hvalue : skipSpaces (' ' :: (text ++ '\n' :: rest)) = text ++ '\n' :: rest := hspace
  have hline : afterLine? ('\n' :: rest) = some rest := rfl
  rw [hsplit]
  rw [htext, List.cons_append] at hread ⊢
  unfold readStatement?
  split
  · rename_i heq
    exact absurd (List.cons.inj heq).1 hbracket
  · rename_i heq
    exact absurd (List.cons.inj heq).1 hbracket
  · rw [hread]
    simp only [Option.bind_eq_bind, Option.bind_some, afterChar?, if_true, hvalue,
      readValue?_writeScalar? h, hline]
    rfl

/-- What a statement starts with: a header, or a key. -/
def StartsLine (c : Char) : Prop := c = '[' ∨ isBareKeyChar c = true

theorem StartsLine.ne {c d : Char} (h : StartsLine c) (hd : d ≠ '[')
    (hbare : isBareKeyChar d = false) : c ≠ d := by
  rintro rfl
  rcases h with rfl | h
  · exact hd rfl
  · exact Bool.false_ne_true (hbare.symm.trans h)

private theorem skipLines_of_starts {c : Char} (h : StartsLine c) (fuel : Nat) (text : List Char) :
    skipLines fuel (c :: text) = c :: text := by
  cases fuel with
  | zero => rfl
  | succ fuel =>
    have hspaces : skipSpaces (c :: text) = c :: text := by
      rcases h with rfl | h
      · rfl
      · exact skipSpaces_of_bare h text
    have hcomment := h.ne (d := '#') (by decide) rfl
    have hbreak := h.ne (d := '\n') (by decide) rfl
    have hreturn := h.ne (d := '\r') (by decide) rfl
    have hline : afterNewline? (c :: text) = none := by
      rw [afterNewline?] <;> simp [hbreak, hreturn]
    rw [skipLines, hspaces]
    split
    · rename_i heq
      exact absurd (List.cons.inj heq).1 hcomment
    · rw [hline]

/-- The text is that of the statements. -/
structure Reads (text : List Char) (statements : List Statement) : Prop where
  length_le : statements.length ≤ text.length
  read (fuel : Nat) (h : statements.length ≤ fuel) : readStatements? fuel text = some statements

theorem Reads.nil : Reads [] [] := by
  refine ⟨Nat.le_refl 0, fun fuel _ => ?_⟩
  cases fuel <;> rfl

theorem Reads.cons {c : Char} (line : List Char) {rest : List Char} {statement : Statement}
    {statements : List Statement} (hc : StartsLine c)
    (hread : readStatement? (c :: (line ++ rest)) = some (statement, rest))
    (h : Reads rest statements) : Reads (c :: (line ++ rest)) (statement :: statements) := by
  have hskip : skipAllLines (c :: (line ++ rest)) = c :: (line ++ rest) :=
    skipLines_of_starts hc _ _
  constructor
  · have := h.length_le
    simp only [List.length_cons, List.length_append]
    omega
  · intro fuel hfuel
    obtain ⟨fuel, rfl⟩ := Nat.exists_eq_succ_of_ne_zero (by simp at hfuel; omega : fuel ≠ 0)
    rw [readStatements?, hskip]
    simp only [hread, Option.bind_eq_bind, Option.bind_some,
      h.read fuel (Nat.le_of_succ_le_succ hfuel)]
    rfl

theorem Reads.blank {c : Char} {text : List Char} {statements : List Statement}
    (hc : StartsLine c) (h : Reads (c :: text) statements) :
    Reads ('\n' :: c :: text) statements := by
  have hblank : skipAllLines ('\n' :: c :: text) = c :: text := skipLines_of_starts hc _ text
  have hplain : skipAllLines (c :: text) = c :: text := skipLines_of_starts hc _ text
  refine ⟨h.length_le.trans (Nat.le_succ _), fun fuel hfuel => ?_⟩
  rw [← h.read fuel hfuel]
  cases fuel with
  | zero => rw [readStatements?, readStatements?, hblank, hplain]
  | succ fuel => rw [readStatements?, readStatements?, hblank, hplain]

/-- A section whose header is a path of bare keys, and whose keys are bare. -/
structure Section.Plain (table : Section) (path : List String) : Prop where
  header : table.header.toList = dotted path
  path_ne_nil : path ≠ []
  path_length : path.length < depthLimit
  path_bare : ∀ key ∈ path, Bare key
  keys_bare : ∀ pair ∈ table.pairs, Bare pair.1

def pairStatement (pair : String × Scalar) : Statement := .pair [pair.1] (Config.scalarData pair.2)

def Section.statements (table : Section) (path : List String) : List Statement :=
  .table path :: table.pairs.map pairStatement

private theorem reads_pairs {pairs : List (String × Scalar)} (hbare : ∀ pair ∈ pairs, Bare pair.1)
    {texts : List (List Char)} (h : pairs.mapM writePair? = some texts) {rest : List Char}
    {statements : List Statement} (hrest : Reads rest statements) :
    Reads (texts.flatten ++ rest) (pairs.map pairStatement ++ statements) := by
  induction pairs generalizing texts with
  | nil =>
    cases h
    exact hrest
  | cons pair pairs ih =>
    simp only [List.mapM_cons, Option.bind_eq_bind, Option.bind_eq_some_iff] at h
    obtain ⟨line, hline, lines, hlines, heq⟩ := h
    cases heq
    simp only [writePair?, Option.bind_eq_bind, Option.bind_eq_some_iff] at hline
    obtain ⟨text, htext, heq⟩ := hline
    cases heq
    have hkey := hbare pair List.mem_cons_self
    have htail := ih (fun p hp => hbare p (List.mem_cons_of_mem _ hp)) hlines
    have hread := readStatement?_pair hkey htext (lines.flatten ++ rest)
    obtain ⟨c, key, hcons, hc⟩ := hkey.exists_cons
    rw [hcons] at hread ⊢
    rw [List.flatten_cons, List.append_assoc]
    simp only [List.cons_append, List.append_assoc, List.nil_append] at hread ⊢
    have hline := Reads.cons (key ++ ' ' :: '=' :: ' ' :: (text ++ ['\n'])) (.inr hc)
      (by simpa using hread) htail
    simpa [pairStatement] using hline

/-- The text of a section is read as its statements. -/
theorem reads_section {table : Section} {path : List String} (h : table.Plain path)
    {text : List Char} (htext : writeSection? table = some text) {rest : List Char}
    {statements : List Statement} (hrest : Reads rest statements) :
    Reads (text ++ rest) (table.statements path ++ statements) := by
  simp only [writeSection?, Option.bind_eq_bind, Option.bind_eq_some_iff] at htext
  obtain ⟨texts, htexts, heq⟩ := htext
  cases heq
  have hpairs := reads_pairs h.keys_bare htexts hrest
  have hread := readStatement?_header h.path_ne_nil h.path_bare h.path_length
    (texts.flatten ++ rest)
  have hline := Reads.cons (dotted path ++ [']', '\n']) (.inl rfl) (by simpa using hread)
    hpairs
  rw [h.header]
  simpa [Section.statements] using hline

private theorem writeSection?_starts {table : Section} {text : List Char}
    (h : writeSection? table = some text) : ∃ tail, text = '[' :: tail := by
  simp only [writeSection?, Option.bind_eq_bind, Option.bind_eq_some_iff] at h
  obtain ⟨texts, -, heq⟩ := h
  cases heq
  exact ⟨_, rfl⟩

/-- The text of a document is read as the statements of its sections. -/
theorem reads_sections {tables : List (Section × List String)}
    (h : ∀ table ∈ tables, table.1.Plain table.2) {texts : List (List Char)}
    (htexts : (tables.map Prod.fst).mapM writeSection? = some texts) :
    Reads (texts.intersperse ['\n']).flatten
      (tables.flatMap fun table => table.1.statements table.2) := by
  induction tables generalizing texts with
  | nil =>
    cases htexts
    exact Reads.nil
  | cons table tables ih =>
    simp only [List.map_cons, List.mapM_cons, Option.bind_eq_bind, Option.bind_eq_some_iff] at htexts
    obtain ⟨text, htext, lines, hlines, heq⟩ := htexts
    cases heq
    have htail := ih (fun t ht => h t (List.mem_cons_of_mem _ ht)) hlines
    have hplain := h table List.mem_cons_self
    cases tables with
    | nil =>
      cases hlines
      have hread := reads_section hplain htext Reads.nil
      simpa using hread
    | cons next tables =>
      simp only [List.map_cons, List.mapM_cons, Option.bind_eq_bind, Option.bind_eq_some_iff] at hlines
      obtain ⟨first, hfirst, others, hothers, heq⟩ := hlines
      cases heq
      obtain ⟨tail, rfl⟩ := writeSection?_starts hfirst
      have hstart : ∃ rest, ((('[' :: tail) :: others).intersperse ['\n']).flatten = '[' :: rest := by
        cases others with
        | nil => exact ⟨_, rfl⟩
        | cons => exact ⟨_, rfl⟩
      obtain ⟨rest, hrest⟩ := hstart
      rw [hrest] at htail
      have hread := reads_section hplain htext (Reads.blank (.inl rfl) htail)
      rw [← hrest] at hread
      simpa using hread

/-- Reading a document back comes to building its tables from the statements of its sections. -/
theorem read?_write? {tables : List (Section × List String)}
    (h : ∀ table ∈ tables, table.1.Plain table.2) {text : String}
    (htext : write? (tables.map Prod.fst) = some text) :
    read? text = ((tables.flatMap fun table => table.1.statements table.2).foldlM Builder.add?
      ⟨[], []⟩).map fun builder => .table (Node.entriesToData builder.entries) := by
  simp only [write?, Option.bind_eq_bind, Option.bind_eq_some_iff] at htext
  obtain ⟨texts, htexts, heq⟩ := htext
  cases heq
  have hreads := reads_sections h htexts
  have hmark : ∀ rest, (texts.intersperse ['\n']).flatten ≠ '\uFEFF' :: rest := by
    intro rest heq
    cases tables with
    | nil =>
      cases htexts
      cases heq
    | cons table tables =>
      simp only [List.map_cons, List.mapM_cons, Option.bind_eq_bind, Option.bind_eq_some_iff]
        at htexts
      obtain ⟨first, hfirst, others, hothers, hcons⟩ := htexts
      cases hcons
      obtain ⟨tail, rfl⟩ := writeSection?_starts hfirst
      cases others with
      | nil => cases (List.cons.inj heq).1
      | cons => cases (List.cons.inj heq).1
  unfold read?
  rw [String.toList_ofList]
  generalize (texts.intersperse ['\n']).flatten = characters at hreads hmark
  simp only [hreads.read _ hreads.length_le, Option.bind_eq_bind, Option.bind_some]
  cases (tables.flatMap fun table => table.1.statements table.2).foldlM Builder.add? ⟨[], []⟩ <;> rfl

end SignalDesk.Toml
