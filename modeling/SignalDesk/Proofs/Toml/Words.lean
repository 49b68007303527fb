import SignalDesk.Toml.Reader

/-!
# The integers of a document

Whatever is read from TOML text, each of its integers fits in 64 bits with a sign: the readers of
numbers see to it, and building tables only moves values around.
-/

namespace SignalDesk

namespace Data

/-- Every integer in the data fits in 64 bits with a sign. -/
inductive Bounded : Data → Prop where
  | null : Bounded .null
  | bool (b : Bool) : Bounded (.bool b)
  | int {n : Int} (h : fitsInt64 n = true) : Bounded (.int n)
  | float (x : Float) : Bounded (.float x)
  | text (s : String) : Bounded (.text s)
  | list {items : List Data} (h : ∀ item ∈ items, Bounded item) : Bounded (.list items)
  | table {members : List (String × Data)} (h : ∀ member ∈ members, Bounded member.2) :
    Bounded (.table members)
  | unreadable : Bounded .unreadable

end Data

namespace Toml

open Data (Bounded)

namespace Node

private theorem entriesToData_eq_map (entries : Entries) :
    entriesToData entries = entries.map fun entry => (entry.1, entry.2.toData) := by
  induction entries with
  | nil => rfl
  | cons entry entries ih => rw [entriesToData, ih, List.map_cons]

private theorem itemsToData_eq_map (items : List Entries) :
    itemsToData items = items.map fun item => Data.table (entriesToData item) := by
  induction items with
  | nil => rfl
  | cons item items ih => rw [itemsToData, ih, List.map_cons]

/-- Every integer in a node fits in 64 bits with a sign. -/
inductive Bounded : Node → Prop where
  | value {data : Data} (h : data.Bounded) : Bounded (.value data)
  | table {origin : Origin} {entries : Entries} (h : ∀ entry ∈ entries, Bounded entry.2) :
    Bounded (.table origin entries)
  | tables {items : List Entries} (h : ∀ item ∈ items, ∀ entry ∈ item, Bounded entry.2) :
    Bounded (.tables items)

theorem Bounded.toData {node : Node} (h : node.Bounded) : node.toData.Bounded := by
  induction h with
  | value h => exact h
  | table _ ih =>
    rw [Node.toData, entriesToData_eq_map]
    refine .table fun member hmember => ?_
    obtain ⟨entry, hentry, rfl⟩ := List.mem_map.1 hmember
    exact ih entry hentry
  | tables _ ih =>
    rw [Node.toData, itemsToData_eq_map]
    refine .list fun data hdata => ?_
    obtain ⟨item, hitem, rfl⟩ := List.mem_map.1 hdata
    rw [entriesToData_eq_map]
    refine .table fun member hmember => ?_
    obtain ⟨entry, hentry, rfl⟩ := List.mem_map.1 hmember
    exact ih item hitem entry hentry

end Node

namespace Entries

def Bounded (entries : Entries) : Prop := ∀ entry ∈ entries, entry.2.Bounded

theorem Bounded.nil : Bounded [] := fun _ h => nomatch h

theorem Bounded.toData {entries : Entries} (h : Bounded entries) :
    (Data.table (Node.entriesToData entries)).Bounded := by
  have hnode : Node.Bounded (.table .explicit entries) := .table h
  exact hnode.toData

private theorem Bounded.of_lookup {entries : Entries} (h : Bounded entries) {key : String}
    {node : Node} (hlookup : entries.lookup key = some node) : node.Bounded := by
  obtain ⟨before, after, rfl, -⟩ := List.lookup_eq_some_iff.1 hlookup
  exact h (key, node) (by simp)

theorem Bounded.put {entries : Entries} (h : Bounded entries) {node : Node} (hnode : node.Bounded)
    (key : String) : Bounded (put key node entries) := by
  induction entries with
  | nil =>
    intro entry hentry
    rw [List.mem_singleton.1 hentry]
    exact hnode
  | cons entry entries ih =>
    have hrest : Bounded entries := fun e he => h e (List.mem_cons_of_mem _ he)
    have hfirst : entry.2.Bounded := h entry List.mem_cons_self
    rw [Entries.put]
    split
    · exact List.forall_mem_cons.2 ⟨hnode, hrest⟩
    · exact List.forall_mem_cons.2 ⟨hfirst, ih hrest⟩

variable {opened : Origin} {change : Origin → Entries → Option Entries}

/-- A change at the end of a path keeps what it keeps there. -/
theorem Bounded.descend
    (hchange : ∀ {origin inner changed}, Bounded inner → change origin inner = some changed →
      Bounded changed)
    {origin : Origin} {entries changed : Entries} {path : List String} (h : Bounded entries)
    (heq : descend opened change origin entries path = some changed) : Bounded changed := by
  induction path generalizing origin entries changed with
  | nil => exact hchange h heq
  | cons key path ih =>
    rw [Entries.descend] at heq
    split at heq
    · simp only [Option.bind_eq_bind, Option.bind_eq_some_iff] at heq
      obtain ⟨inner, hinner, hput⟩ := heq
      cases hput
      exact h.put (.table (ih Bounded.nil hinner)) key
    · cases heq
    · rename_i items hlookup
      simp only [Option.bind_eq_bind, Option.bind_eq_some_iff] at heq
      obtain ⟨last, hlast, inner, hinner, hput⟩ := heq
      cases hput
      cases h.of_lookup hlookup with
      | tables hitems =>
        have hdescended := ih (hitems last (List.mem_of_getLast? hlast)) hinner
        refine h.put (.tables fun item hitem => ?_) key
        rcases List.mem_append.1 hitem with hkept | hnew
        · exact hitems item ((List.dropLast_sublist items).mem hkept)
        · rw [List.mem_singleton.1 hnew]
          exact hdescended
    · rename_i found inner hlookup
      split at heq
      · cases heq
      · simp only [Option.bind_eq_bind, Option.bind_eq_some_iff] at heq
        obtain ⟨inner', hinner, hput⟩ := heq
        cases hput
        cases h.of_lookup hlookup with
        | table hentries => exact h.put (.table (ih hentries hinner)) key

variable {entries changed : Entries} {path : List String}

theorem Bounded.insert (h : Bounded entries) {data : Data} (hdata : data.Bounded)
    (heq : insert path data entries = some changed) : Bounded changed := by
  simp only [Entries.insert, Option.bind_eq_bind, Option.bind_eq_some_iff] at heq
  obtain ⟨⟨path, key⟩, -, heq⟩ := heq
  refine h.descend (fun hinner hadd => ?_) heq
  split at hadd
  · cases hadd
  · cases hadd
    exact hinner.put (.value hdata) key

theorem Bounded.openTable (h : Bounded entries) (heq : openTable path entries = some changed) :
    Bounded changed := by
  simp only [Entries.openTable, Option.bind_eq_bind, Option.bind_eq_some_iff] at heq
  obtain ⟨⟨path, key⟩, -, heq⟩ := heq
  refine h.descend (fun hinner hadd => ?_) heq
  split at hadd
  · cases hadd
    exact hinner.put (.table Bounded.nil) key
  · rename_i hlookup
    cases hadd
    cases hinner.of_lookup hlookup with
    | table hkept => exact hinner.put (.table hkept) key
  · cases hadd

theorem Bounded.appendTable (h : Bounded entries) (heq : appendTable path entries = some changed) :
    Bounded changed := by
  simp only [Entries.appendTable, Option.bind_eq_bind, Option.bind_eq_some_iff] at heq
  obtain ⟨⟨path, key⟩, -, heq⟩ := heq
  refine h.descend (fun hinner hadd => ?_) heq
  split at hadd
  · cases hadd
    refine hinner.put (.tables fun item hitem => ?_) key
    rw [List.mem_singleton.1 hitem]
    exact Bounded.nil
  · rename_i items hlookup
    cases hadd
    cases hinner.of_lookup hlookup with
    | tables hitems =>
      refine hinner.put (.tables fun item hitem => ?_) key
      rcases List.mem_append.1 hitem with hold | hnew
      · exact hitems item hold
      · rw [List.mem_singleton.1 hnew]
        exact Bounded.nil
  · cases hadd

theorem Bounded.insertUnder (h : Bounded entries) {header : List String} {data : Data}
    (hdata : data.Bounded) (heq : insertUnder header path data entries = some changed) :
    Bounded changed :=
  h.descend (fun hinner hadd => hinner.insert hdata hadd) heq

end Entries

private theorem bounded_intData? {n : Int} {data : Data} (h : intData? n = some data) :
    data.Bounded := by
  unfold intData? at h
  split at h
  · rename_i hfits
    cases h
    exact .int hfits
  · cases h

private theorem bounded_floatData? {x : Float} {data : Data} (h : floatData? x = some data) :
    data.Bounded := by
  unfold floatData? at h
  split at h
  · cases h
  · cases h
    exact .float x

variable {text rest : List Char} {data : Data}

private theorem bounded_readRadix? {base : Nat} (h : readRadix? base text = some (data, rest)) :
    data.Bounded := by
  simp only [readRadix?, Option.bind_eq_bind, Option.bind_eq_some_iff] at h
  obtain ⟨digits, -, n, hn, heq⟩ := h
  cases heq
  exact bounded_intData? hn

private theorem bounded_readDecimal? {negative : Bool}
    (h : readDecimal? negative text = some (data, rest)) : data.Bounded := by
  unfold readDecimal? at h
  split at h
  · cases h
    exact .float _
  · cases h
    exact .float _
  · simp only [Option.bind_eq_bind, Option.bind_eq_some_iff] at h
    obtain ⟨whole, -, h⟩ := h
    split at h
    · simp only [Option.bind_eq_some_iff] at h
      obtain ⟨x, hx, heq⟩ := h
      cases heq
      exact bounded_floatData? hx
    · simp only [Option.bind_eq_some_iff] at h
      obtain ⟨n, hn, heq⟩ := h
      cases heq
      exact bounded_intData? hn

private theorem bounded_readNumber? (h : readNumber? text = some (data, rest)) : data.Bounded := by
  unfold readNumber? at h
  split at h
  · cases h
    exact .unreadable
  · split at h
    · exact bounded_readRadix? h
    · exact bounded_readRadix? h
    · exact bounded_readRadix? h
    · exact bounded_readDecimal? h

private theorem Entries.Bounded.foldlM_insert {pairs : List (List String × Data)}
    {entries changed : Entries} (h : entries.Bounded) (hpairs : ∀ pair ∈ pairs, pair.2.Bounded)
    (heq : pairs.foldlM (fun entries (key, data) => Entries.insert key data entries) entries =
      some changed) :
    changed.Bounded := by
  induction pairs generalizing entries with
  | nil =>
    cases heq
    exact h
  | cons pair pairs ih =>
    simp only [List.foldlM_cons, Option.bind_eq_bind, Option.bind_eq_some_iff] at heq
    obtain ⟨inserted, hinsert, hrest⟩ := heq
    exact ih (h.insert (hpairs pair List.mem_cons_self) hinsert)
      (fun p hp => hpairs p (List.mem_cons_of_mem _ hp)) hrest

/-- With the given fuel, all that is read is bounded. -/
structure ReadsBounded (fuel : Nat) : Prop where
  value {depth text data rest} (h : readValue? fuel depth text = some (data, rest)) : data.Bounded
  items {depth text items rest} (h : readItems? fuel depth text = some (items, rest)) :
    ∀ item ∈ items, item.Bounded
  pairs {depth text pairs rest} (h : readPairs? fuel depth text = some (pairs, rest)) :
    ∀ pair ∈ pairs, pair.2.Bounded

section

variable {fuel depth : Nat} (ih : ReadsBounded fuel)

include ih

private theorem bounded_readValue?_succ (h : readValue? (fuel + 1) depth text = some (data, rest)) :
    data.Bounded := by
  unfold readValue? at h
  split at h
  · obtain ⟨⟨s, after⟩, -, heq⟩ := Option.map_eq_some_iff.1 h
    cases heq
    exact .text _
  · obtain ⟨⟨s, after⟩, -, heq⟩ := Option.map_eq_some_iff.1 h
    cases heq
    exact .text _
  · cases h
    exact .bool true
  · cases h
    exact .bool false
  · split at h
    · cases h
    · obtain ⟨⟨items, after⟩, hitems, heq⟩ := Option.map_eq_some_iff.1 h
      cases heq
      exact .list (ih.items hitems)
  · split at h
    · cases h
    · split at h
      · cases h
        exact .table nofun
      · simp only [Option.bind_eq_bind, Option.bind_eq_some_iff] at h
        obtain ⟨⟨pairs, after⟩, hpairs, entries, hentries, heq⟩ := h
        cases heq
        exact (Entries.Bounded.nil.foldlM_insert (ih.pairs hpairs) hentries).toData
  · exact bounded_readNumber? h

private theorem bounded_readItems?_succ {items : List Data}
    (h : readItems? (fuel + 1) depth text = some (items, rest)) : ∀ item ∈ items, item.Bounded := by
  unfold readItems? at h
  split at h
  · cases h
    exact nofun
  · simp only [Option.bind_eq_bind, Option.bind_eq_some_iff] at h
    obtain ⟨⟨item, after⟩, hitem, h⟩ := h
    have hbounded := ih.value hitem
    split at h
    · simp only [Option.bind_eq_some_iff] at h
      obtain ⟨⟨others, after⟩, hothers, heq⟩ := h
      cases heq
      exact List.forall_mem_cons.2 ⟨hbounded, ih.items hothers⟩
    · cases h
      exact List.forall_mem_singleton.2 hbounded
    · cases h

private theorem bounded_readPairs?_succ {pairs : List (List String × Data)}
    (h : readPairs? (fuel + 1) depth text = some (pairs, rest)) : ∀ pair ∈ pairs, pair.2.Bounded := by
  unfold readPairs? at h
  simp only [Option.bind_eq_bind, Option.bind_eq_some_iff] at h
  obtain ⟨⟨key, after⟩, -, mark, -, ⟨data, after⟩, hdata, h⟩ := h
  have hbounded := ih.value hdata
  split at h
  · simp only [Option.bind_eq_some_iff] at h
    obtain ⟨⟨others, after⟩, hothers, heq⟩ := h
    cases heq
    exact List.forall_mem_cons.2 ⟨hbounded, ih.pairs hothers⟩
  · cases h
    exact List.forall_mem_singleton.2 hbounded
  · cases h

end

private theorem readsBounded (fuel : Nat) : ReadsBounded fuel := by
  induction fuel with
  | zero => exact ⟨nofun, nofun, nofun⟩
  | succ fuel ih =>
    exact ⟨bounded_readValue?_succ ih, bounded_readItems?_succ ih, bounded_readPairs?_succ ih⟩

def Statement.Bounded : Statement → Prop
  | .pair _ data => data.Bounded
  | .table _ => True
  | .item _ => True

private theorem bounded_readStatement? {statement : Statement}
    (h : readStatement? text = some (statement, rest)) : statement.Bounded := by
  unfold readStatement? at h
  split at h
  · simp only [Option.bind_eq_bind, Option.bind_eq_some_iff] at h
    obtain ⟨⟨path, after⟩, -, first, -, second, -, third, -, heq⟩ := h
    cases heq
    trivial
  · simp only [Option.bind_eq_bind, Option.bind_eq_some_iff] at h
    obtain ⟨⟨path, after⟩, -, first, -, second, -, heq⟩ := h
    cases heq
    trivial
  · simp only [Option.bind_eq_bind, Option.bind_eq_some_iff] at h
    obtain ⟨⟨path, after⟩, -, mark, -, ⟨data, tail⟩, hdata, line, -, heq⟩ := h
    cases heq
    exact (readsBounded _).value hdata

private theorem bounded_readStatements? {fuel : Nat} {statements : List Statement}
    (h : readStatements? fuel text = some statements) :
    ∀ statement ∈ statements, statement.Bounded := by
  induction fuel generalizing text statements with
  | zero =>
    rw [readStatements?] at h
    split at h
    · cases h
      exact nofun
    · cases h
  | succ fuel ih =>
    rw [readStatements?] at h
    split at h
    · cases h
      exact nofun
    · simp only [Option.bind_eq_bind, Option.bind_eq_some_iff] at h
      obtain ⟨⟨statement, after⟩, hstatement, others, hothers, heq⟩ := h
      cases heq
      exact List.forall_mem_cons.2 ⟨bounded_readStatement? hstatement, ih hothers⟩

private theorem Builder.bounded_add? {builder built : Builder} (h : builder.entries.Bounded)
    {statement : Statement} (hstatement : statement.Bounded)
    (heq : builder.add? statement = some built) : built.entries.Bounded := by
  cases statement with
  | table path =>
    simp only [Builder.add?, Option.bind_eq_bind, Option.bind_eq_some_iff] at heq
    obtain ⟨entries, hentries, heq⟩ := heq
    cases heq
    exact h.openTable hentries
  | item path =>
    simp only [Builder.add?, Option.bind_eq_bind, Option.bind_eq_some_iff] at heq
    obtain ⟨entries, hentries, heq⟩ := heq
    cases heq
    exact h.appendTable hentries
  | pair path data =>
    simp only [Builder.add?, Option.bind_eq_bind, Option.bind_eq_some_iff] at heq
    obtain ⟨entries, hentries, heq⟩ := heq
    cases heq
    exact h.insertUnder hstatement hentries

private theorem Builder.bounded_foldlM {statements : List Statement}
    (hstatements : ∀ statement ∈ statements, statement.Bounded) {builder built : Builder}
    (h : builder.entries.Bounded) (heq : statements.foldlM Builder.add? builder = some built) :
    built.entries.Bounded := by
  induction statements generalizing builder with
  | nil =>
    cases heq
    exact h
  | cons statement statements ih =>
    simp only [List.foldlM_cons, Option.bind_eq_bind, Option.bind_eq_some_iff] at heq
    obtain ⟨added, hadd, hrest⟩ := heq
    rw [List.forall_mem_cons] at hstatements
    exact ih hstatements.2 (Builder.bounded_add? h hstatements.1 hadd) hrest

theorem bounded_read? {text : String} {data : Data} (h : read? text = some data) : data.Bounded := by
  simp only [read?, Option.bind_eq_bind, Option.bind_eq_some_iff] at h
  obtain ⟨statements, hstatements, builder, hbuilder, heq⟩ := h
  cases heq
  exact (Builder.bounded_foldlM (bounded_readStatements? hstatements) Entries.Bounded.nil
    hbuilder).toData

end Toml

end SignalDesk
