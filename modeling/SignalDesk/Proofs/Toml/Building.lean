import SignalDesk.Proofs.Toml.Statements

/-!
# Building tables

What `descend` changes at the end of a path is all that it changes, so changes at one path can be
made together. A section with a new header and pairs of different keys becomes one new table.
-/

namespace SignalDesk.Toml

namespace Entries

private theorem lookup_put (key : String) (node : Node) (entries : Entries) :
    (put key node entries).lookup key = some node := by
  induction entries with
  | nil => simp [put]
  | cons entry entries ih =>
    obtain ⟨name, other⟩ := entry
    by_cases h : name = key
    · simp [put, h]
    · have hne : (key == name) = false := by simpa using Ne.symm h
      simp [put, h, List.lookup_cons, hne, ih]

theorem put_put (key : String) (node other : Node) (entries : Entries) :
    put key other (put key node entries) = put key other entries := by
  induction entries with
  | nil => simp [put]
  | cons entry entries ih =>
    obtain ⟨name, old⟩ := entry
    by_cases h : name = key <;> simp [put, h, ih]

private theorem put_of_lookup_eq_none {key : String} {entries : Entries}
    (h : entries.lookup key = none)
    (node : Node) : put key node entries = entries ++ [(key, node)] := by
  induction entries with
  | nil => rfl
  | cons entry entries ih =>
    obtain ⟨name, other⟩ := entry
    rw [List.lookup_cons] at h
    split at h
    · cases h
    · rename_i hne
      have hname : name ≠ key := by
        rintro rfl
        simp at hne
      simp [put, hname, ih h]

private theorem put_append_self {key : String} {entries : Entries} (h : entries.lookup key = none)
    (node other : Node) : put key other (entries ++ [(key, node)]) = entries ++ [(key, other)] := by
  rw [← put_of_lookup_eq_none h, put_put, put_of_lookup_eq_none h]

private theorem lookup_append_self {key : String} {entries : Entries} (h : entries.lookup key = none)
    (node : Node) : (entries ++ [(key, node)]).lookup key = some node := by
  rw [← put_of_lookup_eq_none h, lookup_put]

variable {opened : Origin}

private theorem descend_append (change : Origin → Entries → Option Entries) (origin : Origin)
    (entries : Entries) (path rest : List String) :
    descend opened change origin entries (path ++ rest) =
      descend opened (fun origin inner => descend opened change origin inner rest) origin entries
        path := by
  induction path generalizing origin entries with
  | nil => rfl
  | cons key path ih =>
    rw [List.cons_append, descend, descend]
    simp only [ih]

private theorem descend_bind (opened : Origin) (first second : Origin → Entries → Option Entries)
    (origin : Origin) (entries : Entries) (path : List String) :
    (descend opened first origin entries path).bind
        (fun entries => descend opened second origin entries path) =
      descend opened (fun origin inner => (first origin inner).bind (second origin)) origin entries
        path := by
  induction path generalizing origin entries with
  | nil => rfl
  | cons key path ih =>
    rw [descend, descend]
    split
    · rw [← ih]
      cases descend opened first opened [] path with
      | none => rfl
      | some inner =>
        have hopened : ¬ (opened = .dotted ∧ opened = .explicit) := by
          rintro ⟨rfl, h⟩
          cases h
        simp only [Option.bind_eq_bind, Option.bind_some, pure]
        rw [descend, lookup_put]
        simp only [if_neg hopened, put_put]
        rfl
    · rfl
    · rename_i items _
      cases items.getLast? with
      | none => rfl
      | some last =>
        simp only [Option.bind_eq_bind, Option.bind_some]
        rw [← ih]
        cases descend opened first .explicit last path with
        | none => rfl
        | some last =>
          simp only [Option.bind_some, pure]
          rw [descend, lookup_put]
          simp only [List.getLast?_concat, List.dropLast_concat, Option.bind_eq_bind,
            Option.bind_some, put_put]
          rfl
    · rename_i found inner _
      by_cases hclosed : opened = .dotted ∧ found = .explicit
      · rw [if_pos hclosed, if_pos hclosed]
        rfl
      · rw [if_neg hclosed, if_neg hclosed, ← ih]
        cases descend opened first found inner path with
        | none => rfl
        | some inner =>
          simp only [Option.bind_eq_bind, Option.bind_some, pure]
          rw [descend, lookup_put]
          simp only [if_neg hclosed, put_put]
          rfl

/-- Adds a table under a key that is not in use. -/
def fileTable (key : String) (rows : Entries) (_ : Origin) (inner : Entries) : Option Entries :=
  if (inner.lookup key).isSome then none else some (inner ++ [(key, .table .explicit rows)])

/-- Under the parent a new table can be opened, which makes the entries those of `final`, given its
rows. -/
def Files (entries : Entries) (parent : List String) (key : String) (final : Entries → Entries) :
    Prop :=
  ∀ rows, descend .implicit (fileTable key rows) .explicit entries parent = some (final rows)

private theorem fileTable_fresh {key : String} {inner : Entries} (h : inner.lookup key = none)
    (rows : Entries) (origin : Origin) :
    fileTable key rows origin inner = some (inner ++ [(key, .table .explicit rows)]) := by
  unfold fileTable
  rw [h]
  rfl

theorem files_top {entries : Entries} {key : String} (h : entries.lookup key = none) :
    Files entries [] key fun rows => entries ++ [(key, .table .explicit rows)] :=
  fun rows => fileTable_fresh h rows .explicit

theorem files_first {entries : Entries} {parent : String} (h : entries.lookup parent = none)
    (key : String) :
    Files entries [parent] key fun rows =>
      entries ++ [(parent, .table .implicit [(key, .table .explicit rows)])] := by
  intro rows
  rw [descend, h]
  have hfresh (origin : Origin) : fileTable key rows origin [] = some [(key, .table .explicit rows)] :=
    fileTable_fresh rfl rows origin
  simp only [descend, hfresh, Option.bind_eq_bind, Option.bind_some, put_of_lookup_eq_none h]
  rfl

theorem files_next {entries inner : Entries} {parent key : String}
    (h : entries.lookup parent = none) (hkey : inner.lookup key = none) :
    Files (entries ++ [(parent, .table .implicit inner)]) [parent] key fun rows =>
      entries ++ [(parent, .table .implicit (inner ++ [(key, .table .explicit rows)]))] := by
  intro rows
  rw [descend, lookup_append_self h]
  simp only [descend, fileTable_fresh hkey, Option.bind_eq_bind, Option.bind_some,
    put_append_self h]
  rfl

private theorem descend_mono {opened : Origin} {first second : Origin → Entries → Option Entries}
    (h : ∀ origin inner changed, first origin inner = some changed →
      second origin inner = some changed) {origin : Origin} {entries changed : Entries}
    {path : List String} (hfirst : descend opened first origin entries path = some changed) :
    descend opened second origin entries path = some changed := by
  induction path generalizing origin entries changed with
  | nil => exact h _ _ _ hfirst
  | cons key path ih =>
    rw [descend] at hfirst ⊢
    split at hfirst
    · simp only [Option.bind_eq_bind, Option.bind_eq_some_iff] at hfirst ⊢
      obtain ⟨inner, hinner, hput⟩ := hfirst
      exact ⟨inner, ih hinner, hput⟩
    · cases hfirst
    · simp only [Option.bind_eq_bind, Option.bind_eq_some_iff] at hfirst ⊢
      obtain ⟨last, hlast, inner, hinner, hput⟩ := hfirst
      exact ⟨last, hlast, inner, ih hinner, hput⟩
    · split at hfirst
      · cases hfirst
      · rename_i hopen
        simp only [Option.bind_eq_bind, Option.bind_eq_some_iff] at hfirst ⊢
        obtain ⟨inner, hinner, hput⟩ := hfirst
        rw [if_neg hopen]
        simp only [Option.bind_eq_some_iff]
        exact ⟨inner, ih hinner, hput⟩

private theorem splitLast?_concat (parent : List String) (key : String) :
    splitLast? (parent ++ [key]) = some (parent, key) := by
  rw [splitLast?]
  · rw [List.getLast?_concat, Option.map_some, List.dropLast_concat]
  · simp

variable {entries : Entries} {parent : List String} {key : String} {final : Entries → Entries}

theorem Files.openTable (h : Files entries parent key final) :
    Entries.openTable (parent ++ [key]) entries = some (final []) := by
  unfold Entries.openTable
  rw [splitLast?_concat]
  refine descend_mono ?_ (h [])
  intro origin inner changed hfile
  unfold fileTable at hfile
  split at hfile
  · cases hfile
  · rename_i hfresh
    have hnone : inner.lookup key = none := Option.not_isSome_iff_eq_none.1 hfresh
    rw [hnone]
    simp only [put_of_lookup_eq_none hnone]
    exact hfile

private theorem insert_fresh {rows : Entries} {name : String} (h : rows.lookup name = none)
    (data : Data) : insert [name] data rows = some (rows ++ [(name, .value data)]) := by
  unfold insert
  have hsplit : splitLast? [name] = some ([], name) := rfl
  simp only [hsplit, Option.bind_eq_bind, Option.bind_some, descend, h, put_of_lookup_eq_none h]
  rfl

theorem Files.insertUnder (h : Files entries parent key final) {rows : Entries} {name : String}
    (hname : rows.lookup name = none) (data : Data) :
    Entries.insertUnder (parent ++ [key]) [name] data (final rows) =
      some (final (rows ++ [(name, .value data)])) := by
  have hbind := descend_bind .implicit (fileTable key rows)
    (fun origin inner => descend .implicit (fun _ inner => insert [name] data inner) origin inner
      [key]) .explicit entries parent
  rw [h rows, Option.bind_some] at hbind
  unfold Entries.insertUnder
  rw [descend_append, hbind]
  refine descend_mono ?_ (h (rows ++ [(name, .value data)]))
  intro origin inner changed hfile
  unfold fileTable at hfile ⊢
  split at hfile
  · cases hfile
  · rename_i hfresh
    have hnone : inner.lookup key = none := Option.not_isSome_iff_eq_none.1 hfresh
    rw [if_neg hfresh, Option.bind_some, descend, lookup_append_self hnone]
    simp only [descend, insert_fresh hname, Option.bind_eq_bind, Option.bind_some,
      put_append_self hnone]
    exact hfile

end Entries

def rowsOf (pairs : List (String × Scalar)) : Entries :=
  pairs.map fun pair => (pair.1, .value (Config.scalarData pair.2))

private theorem lookup_rowsOf {pairs : List (String × Scalar)} {name : String}
    (h : name ∉ pairs.map Prod.fst) : (rowsOf pairs).lookup name = none := by
  rw [List.lookup_eq_none_iff]
  intro row hrow
  obtain ⟨pair, hpair, rfl⟩ := List.mem_map.1 hrow
  rw [bne_iff_ne]
  rintro rfl
  exact h (List.mem_map.2 ⟨pair, hpair, rfl⟩)

private theorem foldlM_pairs {entries : Entries} {parent : List String} {key : String}
    {final : Entries → Entries} (h : Entries.Files entries parent key final)
    (before : List (String × Scalar)) {pairs : List (String × Scalar)}
    (hkeys : ((before ++ pairs).map Prod.fst).Nodup) :
    (pairs.map pairStatement).foldlM Builder.add? ⟨final (rowsOf before), parent ++ [key]⟩ =
      some ⟨final (rowsOf (before ++ pairs)), parent ++ [key]⟩ := by
  induction pairs generalizing before with
  | nil =>
    rw [List.append_nil]
    rfl
  | cons pair pairs ih =>
    have hfresh : pair.1 ∉ before.map Prod.fst := by
      rw [List.map_append, List.nodup_append] at hkeys
      intro hmem
      exact hkeys.2.2 _ hmem _ List.mem_cons_self rfl
    have hinsert := h.insertUnder (lookup_rowsOf hfresh) (Config.scalarData pair.2)
    have hrows : rowsOf before ++ [(pair.1, .value (Config.scalarData pair.2))] =
        rowsOf (before ++ [pair]) := by
      simp [rowsOf]
    have hadd : Builder.add? ⟨final (rowsOf before), parent ++ [key]⟩ (pairStatement pair) =
        some ⟨final (rowsOf (before ++ [pair])), parent ++ [key]⟩ := by
      simp only [Builder.add?, pairStatement, hinsert, hrows, Option.bind_eq_bind, Option.bind_some]
      rfl
    have hrest := ih (before ++ [pair]) (by simpa using hkeys)
    rw [List.map_cons, List.foldlM_cons, hadd, Option.bind_eq_bind, Option.bind_some, hrest,
      List.append_assoc]
    rfl

theorem foldlM_section {entries : Entries} (parent : List String) (key : String)
    {final : Entries → Entries} (h : Entries.Files entries parent key final) {table : Section}
    (hkeys : (table.pairs.map Prod.fst).Nodup) {path : List String} (hpath : path = parent ++ [key])
    (header : List String) (rest : List Statement) :
    (table.statements path ++ rest).foldlM Builder.add? ⟨entries, header⟩ =
      rest.foldlM Builder.add? ⟨final (rowsOf table.pairs), path⟩ := by
  subst hpath
  have hopen : Builder.add? ⟨entries, header⟩ (.table (parent ++ [key])) =
      some ⟨final (rowsOf []), parent ++ [key]⟩ := by
    simp only [Builder.add?, h.openTable, Option.bind_eq_bind, Option.bind_some]
    rfl
  have hrows := foldlM_pairs h [] hkeys
  rw [List.foldlM_append, Section.statements, List.foldlM_cons, hopen]
  simp only [Option.bind_eq_bind, Option.bind_some, hrows, List.nil_append]

end SignalDesk.Toml
