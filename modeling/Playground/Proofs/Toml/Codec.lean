import Playground.Proofs.Toml.Page

/-!
# The built-in codec gives back what it writes

The blocks of a document make a document that is laid out as its page is: in each table the values that are no tables come first,
then the tables (`foldlM_add_blocks`). Apart from their order it has the same entries, so that it says the same (`same_close_draft`).
With the page being read as its blocks this is `Codec.givesBack_builtIn`.
-/

namespace Playground.Toml

/-! ## Documents that say the same -/

section Same

variable {v w : Value} {a b : Entries} {name : String}

/-- What says the same as a table is a table. -/
theorem Value.Same.exists_table (h : Value.Same v (.table b)) : ∃ a : Entries, v = .table a ∧ a.Same b := by
  cases h with
  | refl => exact ⟨b, rfl, .refl _⟩
  | @table a _ hnames heach => exact ⟨a, rfl, .table hnames heach⟩

/-- What is neither a table nor an array only says the same as itself. -/
theorem Value.Same.eq (h : Value.Same v w) (htable : ∀ b, w ≠ .table b) (harray : ∀ ws, w ≠ .array ws) : v = w := by
  cases h with
  | refl => rfl
  | array => exact absurd rfl (harray _)
  | table => exact absurd rfl (htable _)

/-- A name is missing from both of two documents that say the same, or from neither. -/
theorem Entries.Same.lookup_eq_none_iff (h : a.Same b) (name : String) : a.lookup name = none ↔ b.lookup name = none := by
  cases h with
  | refl => exact Iff.rfl
  | table hnames _ => exact hnames name

/-- Under a name that is in one of two documents that say the same, there is something in the other that says the same. -/
theorem Entries.Same.exists_lookup (h : a.Same b) (hw : b.lookup name = some w) :
    ∃ v, a.lookup name = some v ∧ Value.Same v w := by
  cases h with
  | refl => exact ⟨w, hw, .refl w⟩
  | table hnames heach =>
    cases hv : a.lookup name with
    | none =>
      rw [(hnames name).mp hv] at hw
      cases hw
    | some v => exact ⟨v, rfl, heach name v w hv hw⟩

end Same

/-! ## Names -/

/-- A name that stands nowhere is not found. -/
theorem lookup_eq_none_of_not_mem {α : Type} {l : List (String × α)} {name : String} (h : name ∉ l.map Prod.fst) :
    l.lookup name = none := by
  rw [List.lookup_eq_none_iff]
  intro p hp
  exact bne_iff_ne.mpr fun heq => h (heq ▸ List.mem_map_of_mem hp)

/-- Where no name stands twice, everything is found under its name. -/
theorem lookup_of_mem {α : Type} {l : List (String × α)} (hnames : (l.map Prod.fst).Nodup) {p : String × α} (hp : p ∈ l) :
    l.lookup p.1 = some p.2 := by
  obtain ⟨before, after, rfl⟩ := List.append_of_mem hp
  rw [List.map_append, List.map_cons, List.nodup_append] at hnames
  have hbefore : p.1 ∉ before.map Prod.fst := fun hmem => hnames.2.2 _ hmem _ List.mem_cons_self rfl
  rw [List.lookup_append, lookup_eq_none_of_not_mem hbefore, Option.none_or, List.lookup_cons, beq_self_eq_true]

/-- Behind other names, a new one is found where it was put. -/
theorem lookup_concat_self {α : Type} {l : List (String × α)} {name : String} (hnew : l.lookup name = none) (x : α) :
    (l ++ [(name, x)]).lookup name = some x := by
  rw [List.lookup_append, hnew, Option.none_or, List.lookup_cons, beq_self_eq_true]

/-- A name that is not found is not found either when another one has been put behind. -/
theorem lookup_concat_of_ne {α : Type} {l : List (String × α)} {name other : String} (hnew : l.lookup name = none)
    (hne : name ≠ other) (x : α) : (l ++ [(other, x)]).lookup name = none := by
  rw [List.lookup_append, hnew, Option.none_or, List.lookup_cons, beq_eq_false_iff_ne.mpr hne, List.lookup_nil]

/-- With a part of the values only, changed or not, a name is found where it was found with a value of that part. -/
theorem lookup_filterMap {α β : Type} (f : α → Option β) {l : List (String × α)} (hnames : (l.map Prod.fst).Nodup)
    (name : String) :
    (l.filterMap fun p => (f p.2).map fun x => (p.1, x)).lookup name = (l.lookup name).bind f := by
  induction l with
  | nil => rfl
  | cons p l ih =>
    rw [List.map_cons, List.nodup_cons] at hnames
    have hrest := ih hnames.2
    rw [List.filterMap_cons, List.lookup_cons]
    by_cases hname : name = p.1
    · -- The name does not stand once more behind this place.
      have hnone : l.lookup name = none := lookup_eq_none_of_not_mem (hname ▸ hnames.1)
      rw [hnone, Option.bind_none] at hrest
      have hfound : (name == p.1) = true := beq_iff_eq.mpr hname
      rw [hfound]
      cases hp : f p.2 with
      | none => simpa [hp] using hrest
      | some x => simp [hp, List.lookup_cons, hfound]
    · have hother : (name == p.1) = false := beq_eq_false_iff_ne.mpr hname
      rw [hother]
      cases f p.2 with
      | none => exact hrest
      | some x => simpa [List.lookup_cons, hother] using hrest

/-- The names of a part of the values are some of the names. -/
theorem map_fst_filterMap_sublist {α β : Type} (f : α → Option β) (l : List (String × α)) :
    (l.filterMap fun p => (f p.2).map fun x => (p.1, x)).map Prod.fst |>.Sublist (l.map Prod.fst) := by
  induction l with
  | nil => exact .slnil
  | cons p l ih =>
    rw [List.filterMap_cons]
    cases f p.2 with
    | none => exact ih.cons _
    | some x => exact ih.cons_cons _

/-- Closing changes what stands under a name, and not where it stands. -/
theorem lookup_close (draft : Draft) (name : String) : draft.close.lookup name = (draft.lookup name).map Node.close := by
  induction draft with
  | nil => rfl
  | cons p draft ih =>
    obtain ⟨other, node⟩ := p
    rw [Draft.close, List.lookup_cons, List.lookup_cons]
    cases name == other with
    | true => rfl
    | false => exact ih

/-! ## The layout of a document -/

namespace Entries

/-- The values of a table that are no tables, as they are read. -/
def ownDraft (entries : Entries) : Draft := entries.own.map fun p => (p.1, .closed p.2)

/-- A table as it is read from a page: first the values that are no tables, then the tables. -/
def draft : Nat → Entries → Draft
  | 0, _ => []
  | levels + 1, entries => entries.ownDraft ++ entries.tables.map fun table => (table.1, .table .header (draft levels table.2))

variable {entries : Entries} {levels : Nat}

/-- A value that is no table, as it is read. -/
def ownNode? (v : Value) : Option Node := if v.entries?.isNone then some (.closed v) else none

/-- A value that is a table, as it is read. -/
def tableNode? (levels : Nat) (v : Value) : Option Node := v.entries?.map fun inner => .table .header (inner.draft levels)

/-- The tables of a table are those of its values that are some. -/
theorem mem_tables {name : String} {inner : Entries} : (name, inner) ∈ entries.tables ↔ (name, .table inner) ∈ entries := by
  rw [tables, List.mem_filterMap]
  constructor
  · rintro ⟨⟨other, v⟩, hmem, heq⟩
    cases v <;> simp [Value.entries?] at heq
    obtain ⟨rfl, rfl⟩ := heq
    exact hmem
  · intro hmem
    exact ⟨_, hmem, rfl⟩

/-- The values that are no tables, picked out one by one. -/
theorem ownDraft_eq_filterMap (entries : Entries) :
    entries.ownDraft = entries.filterMap fun p => (ownNode? p.2).map fun node => (p.1, node) := by
  induction entries with
  | nil => rfl
  | cons p entries ih =>
    rw [List.filterMap_cons, ← ih, ownDraft, own, List.filter_cons, ownNode?]
    split <;> rfl

/-- A table's names are found on its page as what they are in the table. -/
theorem lookup_draft (hnames : (entries.map Prod.fst).Nodup) (name : String) :
    (entries.draft (levels + 1)).lookup name = (entries.lookup name).map fun v => (tableNode? levels v).getD (.closed v) := by
  have htables : entries.tables.map (fun table => (table.1, Node.table .header (table.2.draft levels))) =
      entries.filterMap fun p => (tableNode? levels p.2).map fun node => (p.1, node) := by
    rw [tables, List.map_filterMap]
    simp only [tableNode?, Option.map_map]
    rfl
  rw [draft, List.lookup_append, htables, ownDraft_eq_filterMap, lookup_filterMap ownNode? hnames,
    lookup_filterMap (tableNode? levels) hnames]
  cases entries.lookup name with
  | none => rfl
  | some v => cases v <;> rfl

/-- A document that is read from a page says the same as the one that was written. -/
theorem same_close_draft (h : entries.Plain levels) : Entries.Same (entries.draft levels).close entries := by
  induction levels generalizing entries with
  | zero => exact h.elim
  | succ levels ih =>
    obtain ⟨⟨hnames, -⟩, htables⟩ := h
    refine .table ?_ ?_
    · intro name
      rw [lookup_close, lookup_draft hnames, Option.map_map, Option.map_eq_none_iff]
    · intro name v w hv hw
      rw [lookup_close, lookup_draft hnames, hw, Option.map_some, Option.map_some] at hv
      obtain rfl := Option.some.inj hv
      cases w with
      | table inner =>
        obtain ⟨before, after, hsplit, -⟩ := List.lookup_eq_some_iff.mp hw
        have hmem : (name, .table inner) ∈ entries := hsplit ▸ List.mem_append_right _ List.mem_cons_self
        exact ih (htables _ (mem_tables.mpr hmem))
      | string _ | integer _ | float | boolean _ | moment | array _ => exact .refl _

end Entries

/-! ## Blocks become tables -/

/-- Pairs whose names differ, and are new, are added to a table one after the other. -/
theorem putAll_single (draft : Draft) {ps : Entries} (hnames : (ps.map Prod.fst).Nodup)
    (hnew : ∀ name ∈ ps.map Prod.fst, draft.lookup name = none) :
    draft.putAll (ps.map Pair.single) = some (draft ++ ps.map fun p => (p.1, .closed p.2)) := by
  induction ps generalizing draft with
  | nil => exact congrArg some (List.append_nil _).symm
  | cons p ps ih =>
    rw [List.map_cons, List.nodup_cons] at hnames
    rw [List.map_cons, List.forall_mem_cons] at hnew
    have hput : Draft.put [] p.1 p.2 draft = some (draft ++ [(p.1, .closed p.2)]) := by
      rw [Draft.put, hnew.1]
      rfl
    have hstill : ∀ name ∈ ps.map Prod.fst, (draft ++ [(p.1, Node.closed p.2)]).lookup name = none := by
      intro name hname
      refine lookup_concat_of_ne (hnew.2 name hname) ?_ _
      rintro rfl
      exact hnames.1 hname
    have hrest := ih _ hnames.2 hstill
    rw [Draft.putAll] at hrest ⊢
    rw [List.map_cons, List.foldlM_cons]
    change (Draft.put [] p.1 p.2 draft).bind _ = _
    rw [hput, Option.bind_some, hrest, List.append_assoc, List.map_cons]
    rfl

/-- What stands behind other names is replaced there. -/
theorem replace_concat_self {draft : Draft} {name : String} (hnew : draft.lookup name = none) (node node' : Node) :
    (draft ++ [(name, node)]).replace name node' = draft ++ [(name, node')] := by
  have hkept : draft.map (fun entry => if entry.1 = name then (name, node') else entry) = draft := by
    refine List.map_congr_left ?_ |>.trans (List.map_id draft)
    intro entry hentry
    exact if_neg (bne_iff_ne.mp (List.lookup_eq_none_iff.mp hnew entry hentry)).symm
  rw [Draft.replace, List.map_append, hkept, List.map_singleton, if_pos rfl]

namespace Block

/-- A block with a new name comes behind what there is. -/
theorem add_root {draft : Draft} {name : String} {entries : Entries} (hnames : (entries.map Prod.fst).Nodup)
    (hnew : draft.lookup name = none) :
    add draft ⟨[name], entries.own⟩ = some (draft ++ [(name, .table .header entries.ownDraft)]) := by
  have hown : (entries.own.map Prod.fst).Nodup := hnames.sublist (List.filter_sublist.map _)
  have hpairs := putAll_single [] hown fun _ _ => rfl
  rw [List.nil_append] at hpairs
  have hname : add draft ⟨[name], entries.own⟩ = Draft.openTable draft [] name (entries.own.map Pair.single) := rfl
  rw [hname, Draft.openTable, Draft.change, hnew, hpairs]
  rfl

/-- A block inside the last table is added to that one. -/
theorem add_under {b : Block} (hheaded : b.path ≠ []) {draft : Draft} {name : String} (hnew : draft.lookup name = none)
    (inner : Draft) :
    add (draft ++ [(name, .table .header inner)]) (b.under name) =
      (add inner b).map fun inner => draft ++ [(name, .table .header inner)] := by
  obtain ⟨path, pairs⟩ := b
  obtain ⟨first, path, rfl⟩ := List.exists_cons_of_ne_nil hheaded
  have hunder : add (draft ++ [(name, .table .header inner)]) (under name ⟨first :: path, pairs⟩) =
      Draft.openTable (draft ++ [(name, .table .header inner)]) (name :: (first :: path).dropLast)
        ((first :: path).getLastD "") (pairs.map Pair.single) := rfl
  rw [hunder, Draft.openTable, Draft.change, lookup_concat_self hnew]
  simp only [replace_concat_self hnew]
  rfl

/-- So are blocks one after the other. -/
theorem foldlM_add_under {bs : List Block} (hheaded : ∀ b ∈ bs, b.path ≠ []) {draft : Draft} {name : String}
    (hnew : draft.lookup name = none) (inner : Draft) :
    (bs.map (under name)).foldlM add (draft ++ [(name, .table .header inner)]) =
      (bs.foldlM add inner).map fun inner => draft ++ [(name, .table .header inner)] := by
  induction bs generalizing inner with
  | nil => rfl
  | cons b bs ih =>
    rw [List.forall_mem_cons] at hheaded
    rw [List.map_cons, List.foldlM_cons, List.foldlM_cons, add_under hheaded.1 hnew]
    cases add inner b with
    | none => rfl
    | some inner => exact ih hheaded.2 inner

end Block

namespace Entries

variable {entries : Entries} {levels : Nat}

/-- A plain table has at least its own level. -/
theorem Plain.pos (h : entries.Plain levels) : 0 < levels := by
  cases levels with
  | zero => exact h.elim
  | succ levels => exact Nat.succ_pos levels

/-- The names of a plain table can stand on a page. -/
theorem Plain.named (h : entries.Plain levels) : entries.Named := by
  cases levels with
  | zero => exact h.elim
  | succ levels => exact h.1

/-- The blocks of a plain table can be written: they have headers, which are not too long, and names without quotes. -/
theorem Plain.blocks (h : entries.Plain levels) : ∀ b ∈ entries.blocks levels,
    b.path ≠ [] ∧ b.path.length < levels ∧ ∀ name ∈ b.path ++ b.names, IsBareName name := by
  induction levels generalizing entries with
  | zero => exact h.elim
  | succ levels ih =>
    obtain ⟨⟨-, hbare⟩, htables⟩ := h
    intro b hb
    obtain ⟨⟨name, inner⟩, htable, hb⟩ := List.mem_flatMap.mp hb
    have hplain := htables _ htable
    have hname : IsBareName name := hbare _ (List.mem_map_of_mem (mem_tables.mp htable))
    rw [List.mem_cons, List.mem_map] at hb
    obtain rfl | ⟨inside, hinside, rfl⟩ := hb
    · refine ⟨List.cons_ne_nil _ _, Nat.succ_lt_succ hplain.pos, ?_⟩
      intro other hother
      obtain rfl | hother := List.mem_cons.mp hother
      · exact hname
      · exact hplain.named.2 other (List.filter_sublist.map _ |>.subset hother)
    · obtain ⟨-, hlength, hbare⟩ := ih hplain inside hinside
      refine ⟨List.cons_ne_nil _ _, Nat.succ_lt_succ hlength, ?_⟩
      intro other hother
      obtain rfl | hother := List.mem_cons.mp hother
      · exact hname
      · exact hbare other hother

/-- The tables of a table come behind what there is, each with what is in it, if their names are new and differ. -/
theorem foldlM_add_tables {tables : List (String × Entries)} (hnames : (tables.map Prod.fst).Nodup) {draft : Draft}
    (hnew : ∀ name ∈ tables.map Prod.fst, draft.lookup name = none)
    (hplain : ∀ table ∈ tables, table.2.Plain levels)
    (hinner : ∀ table ∈ tables, (table.2.blocks levels).foldlM Block.add table.2.ownDraft = some (table.2.draft levels)) :
    (tables.flatMap fun table => ⟨[table.1], table.2.own⟩ :: (table.2.blocks levels).map (Block.under table.1)).foldlM
      Block.add draft = some (draft ++ tables.map fun table => (table.1, .table .header (table.2.draft levels))) := by
  induction tables generalizing draft with
  | nil => exact congrArg some (List.append_nil _).symm
  | cons table tables ih =>
    rw [List.map_cons, List.nodup_cons] at hnames
    rw [List.map_cons, List.forall_mem_cons] at hnew
    rw [List.forall_mem_cons] at hplain hinner
    obtain ⟨name, inner⟩ := table
    have hhead : Block.add draft ⟨[name], inner.own⟩ = some (draft ++ [(name, .table .header inner.ownDraft)]) :=
      Block.add_root hplain.1.named.1 hnew.1
    have hunder := Block.foldlM_add_under (fun b hb => (hplain.1.blocks b hb).1) hnew.1 inner.ownDraft
    have hstill : ∀ other ∈ tables.map Prod.fst,
        (draft ++ [(name, Node.table .header (inner.draft levels))]).lookup other = none := by
      intro other hother
      refine lookup_concat_of_ne (hnew.2 other hother) ?_ _
      rintro rfl
      exact hnames.1 hother
    have hrest := ih hnames.2 hstill hplain.2 hinner.2
    rw [hinner.1, Option.map_some] at hunder
    rw [List.flatMap_cons, List.foldlM_append, List.foldlM_cons, hhead]
    simp only [Option.bind_eq_bind, Option.bind_some, hunder, hrest, List.append_assoc, List.map_cons, List.singleton_append]

/-- The blocks of a table make the table as its page is laid out. -/
theorem foldlM_add_blocks (h : entries.Plain levels) :
    (entries.blocks levels).foldlM Block.add entries.ownDraft = some (entries.draft levels) := by
  induction levels generalizing entries with
  | zero => exact h.elim
  | succ levels ih =>
    obtain ⟨⟨hnames, -⟩, htables⟩ := h
    refine foldlM_add_tables ?_ ?_ htables fun table htable => ih (htables table htable)
    · exact hnames.sublist (map_fst_filterMap_sublist Value.entries? entries)
    · -- A name of a table is no name of one of the other values.
      intro name hname
      obtain ⟨⟨name, inner⟩, htable, rfl⟩ := List.mem_map.mp hname
      have hfound : entries.lookup name = some (.table inner) := lookup_of_mem hnames (mem_tables.mp htable)
      rw [ownDraft_eq_filterMap, lookup_filterMap ownNode? hnames, hfound]
      rfl

end Entries

/-- A page is read as the document that was written. -/
theorem Codec.givesBack_builtIn : Codec.builtIn.GivesBack := by
  intro document text hprint
  obtain ⟨⟨hown, hplain⟩, hpage⟩ := Option.ite_none_right_eq_some.mp hprint
  refine ⟨(document.draft (maxDepth + 1)).close, ?_, Entries.same_close_draft hplain⟩
  have hblocks : ∀ b ∈ document.blocks (maxDepth + 1), b.Plain := by
    intro b hb
    obtain ⟨hheaded, hshallow, hbare⟩ := hplain.blocks b hb
    exact ⟨hheaded, Nat.le_of_lt_succ hshallow, hbare⟩
  have hempty : document.ownDraft = [] := by
    rw [Entries.ownDraft, List.isEmpty_iff.mp hown, List.map_nil]
  have hmade := Entries.foldlM_add_blocks hplain
  rw [hempty] at hmade
  show Toml.parse? text = _
  rw [parse?_writePage hblocks hpage, hmade, Option.map_some]

end Playground.Toml
