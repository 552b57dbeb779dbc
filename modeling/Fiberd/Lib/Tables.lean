import Mathlib.Data.List.AList

/-!
Finite tables over association lists with distinct keys.  A table is read with
`get`, written with `put` and cut with `drop`; `count` is the number of rows a
test accepts, and the three counting rules say how a write moves it.
-/

namespace Tables

abbrev Table (κ ν : Type) := AList (fun _ : κ => ν)

variable {κ ν : Type} [DecidableEq κ]

def Table.get (table : Table κ ν) (key : κ) : Option ν :=
  AList.lookup key table

def Table.put (table : Table κ ν) (key : κ) (value : ν) : Table κ ν :=
  AList.insert key value table

def Table.drop (table : Table κ ν) (key : κ) : Table κ ν :=
  AList.erase key table

def Table.rows (table : Table κ ν) : List (κ × ν) :=
  table.entries.map fun row => (row.1, row.2)

def Table.map {μ : Type} (change : ν → μ) (table : Table κ ν) : Table κ μ :=
  ⟨table.entries.map fun row => ⟨row.1, change row.2⟩, by
    have distinct := table.nodupKeys
    simp only [List.NodupKeys, List.keys, List.map_map] at distinct ⊢
    exact distinct⟩

def Table.keep (test : ν → Bool) (table : Table κ ν) : Table κ ν :=
  ⟨table.entries.filter fun row => test row.2,
    table.nodupKeys.sublist List.filter_sublist⟩

def Table.edit (table : Table κ ν) (key : κ) (change : ν → ν) : Table κ ν :=
  match table.get key with
  | some value => table.put key (change value)
  | none => table

def Table.count (test : κ → ν → Bool) (table : Table κ ν) : Nat :=
  table.entries.countP fun row => test row.1 row.2

@[simp] theorem get_empty (key : κ) : (∅ : Table κ ν).get key = none :=
  AList.lookup_empty key

theorem get_put (table : Table κ ν) (key query : κ) (value : ν) :
    (table.put key value).get query = if query = key then some value else table.get query := by
  by_cases same : query = key
  · subst query
    simp [Table.get, Table.put]
  · simp [Table.get, Table.put, same, AList.lookup_insert_ne same]

@[simp] theorem get_put_same (table : Table κ ν) (key : κ) (value : ν) :
    (table.put key value).get key = some value := by
  simp [get_put]

variable {key query : κ}

theorem get_put_other (table : Table κ ν) (value : ν) (other : query ≠ key) :
    (table.put key value).get query = table.get query := by
  simp [get_put, other]

variable {value : ν}

/-- A row of a written table is the one written or one of before. -/
theorem get_put_eq_some {table : Table κ ν} {other : ν}
    (got : (table.put key value).get query = some other) :
    query = key ∧ value = other ∨ query ≠ key ∧ table.get query = some other := by
  rw [get_put] at got
  split at got
  · exact .inl ⟨‹_›, Option.some.inj got⟩
  · exact .inr ⟨‹_›, got⟩

theorem get_put_fresh {table : Table κ ν} {added : ν} (free : table.get key = none)
    (got : table.get query = some value) : (table.put key added).get query = some value := by
  rw [get_put_other _ _ (by rintro rfl; simp [free] at got), got]

theorem get_drop (table : Table κ ν) (key query : κ) :
    (table.drop key).get query = if query = key then none else table.get query := by
  by_cases same : query = key
  · subst query
    simp [Table.get, Table.drop]
  · simp [Table.get, Table.drop, same, AList.lookup_erase_ne same]

@[simp] theorem get_drop_same (table : Table κ ν) (key : κ) : (table.drop key).get key = none := by
  simp [get_drop]

theorem get_drop_other (table : Table κ ν) (other : query ≠ key) :
    (table.drop key).get query = table.get query := by
  simp [get_drop, other]

theorem get_drop_eq_some {table : Table κ ν} (got : (table.drop key).get query = some value) :
    query ≠ key ∧ table.get query = some value := by
  simpa [get_drop] using got

@[simp] theorem get_map {μ : Type} (change : ν → μ) (table : Table κ ν) (key : κ) :
    (table.map change).get key = (table.get key).map change := by
  have dlookup_map : ∀ rows : List (Sigma fun _ : κ => ν),
      (rows.map fun row => (⟨row.1, change row.2⟩ : Sigma fun _ : κ => μ)).dlookup key =
        (rows.dlookup key).map change := by
    intro rows
    induction rows with
    | nil => rfl
    | cons row rows ih =>
      obtain ⟨name, value⟩ := row
      by_cases same : key = name
      · subst key
        simp
      · have tail : List.dlookup key ((⟨name, value⟩ : Sigma fun _ : κ => ν) :: rows) =
            rows.dlookup key := List.dlookup_cons_ne _ _ same
        rw [tail, ← ih]
        exact List.dlookup_cons_ne _ _ same
  exact dlookup_map table.entries

theorem mem_rows_iff (table : Table κ ν) (key : κ) (value : ν) :
    (key, value) ∈ table.rows ↔ table.get key = some value := by
  have lookup := AList.mem_lookup_iff (a := key) (b := value) (s := table)
  simp only [Option.mem_def] at lookup
  rw [Table.get, lookup, Table.rows, List.mem_map]
  constructor
  · rintro ⟨⟨got, item⟩, mem, same⟩
    cases same
    exact mem
  · intro mem
    exact ⟨⟨key, value⟩, mem, rfl⟩

omit [DecidableEq κ] in
theorem rows_distinct (table : Table κ ν) : (table.rows.map Prod.fst).Nodup := by
  have keys : table.rows.map Prod.fst = table.entries.keys := by
    simp [Table.rows, List.keys]
  rw [keys]
  exact table.nodupKeys

theorem get_keep (test : ν → Bool) (table : Table κ ν) (key : κ) (value : ν) :
    (table.keep test).get key = some value ↔ table.get key = some value ∧ test value = true := by
  rw [← mem_rows_iff, ← mem_rows_iff]
  simp [Table.keep, Table.rows, List.mem_filter]

theorem get_edit (table : Table κ ν) (key query : κ) (change : ν → ν) :
    (table.edit key change).get query =
      if query = key then (table.get key).map change else table.get query := by
  unfold Table.edit
  split
  · rename_i value got
    rw [get_put, got, Option.map_some]
  · rename_i gone
    split
    · rename_i same
      rw [same, gone, Option.map_none]
    · rfl

theorem edit_eq_put (table : Table κ ν) (change : ν → ν) (got : table.get key = some value) :
    table.edit key change = table.put key (change value) := by
  simp [Table.edit, got]

/-- A row of an edited table is the one changed or one of before. -/
theorem get_edit_eq_some {table : Table κ ν} {key query : κ} {change : ν → ν} {value : ν}
    (got : (table.edit key change).get query = some value) :
    (query = key ∧ ∃ old, table.get key = some old ∧ change old = value) ∨
      query ≠ key ∧ table.get query = some value := by
  rw [get_edit] at got
  split at got
  · exact .inl ⟨‹_›, Option.map_eq_some_iff.mp got⟩
  · exact .inr ⟨‹_›, got⟩

theorem get_edit_other (table : Table κ ν) (change : ν → ν) (other : query ≠ key) :
    (table.edit key change).get query = table.get query := by
  simp [get_edit, other]

omit [DecidableEq κ] in
@[simp] theorem count_empty (test : κ → ν → Bool) : (∅ : Table κ ν).count test = 0 := rfl

theorem count_drop_add (test : κ → ν → Bool) (table : Table κ ν)
    (got : table.get key = some value) :
    (table.drop key).count test + (if test key value then 1 else 0) = table.count test := by
  have mem : key ∈ table.entries.keys := by
    apply AList.lookup_isSome.mp
    rw [show AList.lookup key table = some value from got]
    rfl
  obtain ⟨item, front, back, gone, split, erased⟩ := List.exists_of_kerase mem
  have row : (⟨key, item⟩ : Sigma fun _ : κ => ν) ∈ table.entries := by simp [split]
  have same : item = value := by
    have lookup := AList.mem_lookup_iff.mpr row
    simp only [Option.mem_def] at lookup
    simp only [Table.get] at got
    exact Option.some.inj (lookup.symm.trans got)
  subst item
  change (List.kerase key table.entries).countP _ + _ = table.entries.countP _
  rw [erased, split]
  simp only [List.countP_append, List.countP_cons]
  omega

theorem count_drop_absent (test : κ → ν → Bool) (table : Table κ ν)
    (gone : table.get key = none) : (table.drop key).count test = table.count test := by
  have missing : key ∉ table.entries.keys := AList.lookup_eq_none.mp gone
  change (List.kerase key table.entries).countP _ = table.entries.countP _
  rw [List.kerase_of_notMem_keys missing]

theorem count_put_eq (test : κ → ν → Bool) (table : Table κ ν) (key : κ) (value : ν) :
    (table.put key value).count test =
      (table.drop key).count test + if test key value then 1 else 0 := by
  change (List.kinsert key value table.entries).countP _ = _
  rw [List.kinsert_def, List.countP_cons]
  rfl

theorem count_put_fresh (test : κ → ν → Bool) (table : Table κ ν) (value : ν)
    (gone : table.get key = none) :
    (table.put key value).count test = table.count test + if test key value then 1 else 0 := by
  rw [count_put_eq, count_drop_absent test table gone]

theorem count_put_add (test : κ → ν → Bool) (table : Table κ ν) {old : ν} (value : ν)
    (got : table.get key = some old) :
    (table.put key value).count test + (if test key old then 1 else 0) =
      table.count test + if test key value then 1 else 0 := by
  rw [count_put_eq, ← count_drop_add test table got]
  omega

theorem count_pos_iff (test : κ → ν → Bool) (table : Table κ ν) :
    0 < table.count test ↔ ∃ key value, table.get key = some value ∧ test key value = true := by
  rw [Table.count, List.countP_pos_iff]
  constructor
  · rintro ⟨⟨key, value⟩, mem, accepted⟩
    exact ⟨key, value, AList.mem_lookup_iff.mpr mem, accepted⟩
  · rintro ⟨key, value, got, accepted⟩
    exact ⟨⟨key, value⟩, AList.mem_lookup_iff.mp got, accepted⟩

theorem count_eq_zero_iff (test : κ → ν → Bool) (table : Table κ ν) :
    table.count test = 0 ↔ ∀ key value, table.get key = some value → test key value = false := by
  constructor
  · intro zero key value got
    by_contra accepted
    have positive := (count_pos_iff test table).mpr ⟨key, value, got, by simpa using accepted⟩
    omega
  · intro none
    by_contra nonzero
    obtain ⟨key, value, got, accepted⟩ := (count_pos_iff test table).mp (by omega)
    simp [none key value got] at accepted

/-- A key has one row or none. -/
theorem rows_filter_key (table : Table κ ν) (key : κ) :
    table.rows.filter (fun row => decide (row.1 = key)) =
      (table.get key).toList.map fun value => (key, value) := by
  have single : ∀ rows : List (κ × ν), (rows.map Prod.fst).Nodup → ∀ value, (key, value) ∈ rows →
      rows.filter (fun row => decide (row.1 = key)) = [(key, value)] := by
    intro rows nodup value mem
    obtain ⟨front, back, rfl⟩ := List.append_of_mem mem
    have apart : ∀ row ∈ front ++ back, row.1 ≠ key := by
      intro row inside same
      simp only [List.map_append, List.map_cons, List.nodup_append, List.nodup_cons,
        List.mem_map, List.mem_cons] at nodup
      grind
    rw [List.filter_append, List.filter_cons_of_pos (by simp)]
    rw [List.filter_eq_nil_iff.mpr, List.filter_eq_nil_iff.mpr]
    · rfl
    · intro row inside
      simpa using apart row (List.mem_append_right _ inside)
    · intro row inside
      simpa using apart row (List.mem_append_left _ inside)
  cases got : table.get key with
  | none =>
    refine List.filter_eq_nil_iff.mpr ?_
    rintro ⟨other, value⟩ mem same
    simp only [decide_eq_true_eq] at same
    subst other
    simp [(mem_rows_iff table key value).mp mem] at got
  | some value =>
    exact single _ (rows_distinct table) value ((mem_rows_iff table key value).mpr got)

theorem filter_map_rows {μ : Type} {table : Table κ ν} {shown : κ × ν → μ} (name : μ → κ)
    (named : ∀ key value, table.get key = some value → name (shown (key, value)) = key) (key : κ) :
    (table.rows.map shown).filter (fun entry => decide (name entry = key)) =
      (table.get key).toList.map fun value => shown (key, value) := by
  have rows : table.rows.filter ((fun entry => decide (name entry = key)) ∘ shown) =
      table.rows.filter fun row => decide (row.1 = key) := by
    refine List.filter_congr ?_
    rintro ⟨other, value⟩ mem
    simp [named other value ((mem_rows_iff _ _ _).mp mem)]
  rw [List.filter_map, rows, rows_filter_key, List.map_map]
  rfl

omit [DecidableEq κ] in
/-- Of distinct keys only one gives anything. -/
theorem flatMap_single {μ : Type} {keys : List κ} (nodup : keys.Nodup) (mem : key ∈ keys)
    {rows : κ → List μ} (others : ∀ other ∈ keys, other ≠ key → rows other = []) :
    keys.flatMap rows = rows key := by
  induction keys with
  | nil => simp at mem
  | cons first keys ih =>
    obtain ⟨apart, nodup⟩ := List.nodup_cons.mp nodup
    rw [List.flatMap_cons]
    rcases List.mem_cons.mp mem with rfl | later
    · rw [List.flatMap_eq_nil_iff.mpr, List.append_nil]
      intro other inside
      exact others other (by simp [inside]) (by rintro rfl; exact apart inside)
    · rw [others first (by simp) (by rintro rfl; exact apart later), List.nil_append,
        ih nodup later fun other inside => others other (by simp [inside])]

end Tables
