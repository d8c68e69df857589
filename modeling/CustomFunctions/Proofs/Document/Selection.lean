import CustomFunctions.Proofs.Document.Growth
import CustomFunctions.Proofs.Document.Merge

/-!
# What a merge keeps

A merge keeps a function exactly if no function kept before it has its id, in any letter case, or its
name, and an enum exactly if it is the first one with its id. What the merged generations say is kept
as well, and every function or enum that is left out is reported with the owner of its key.

## Main definitions

- `Generation.IsParallel` — the associations belong to the functions
- `Generation.IsFirstWinsMerge` — the merged generation as the outcome of first come, first kept
-/

namespace CustomFunctions

open FirstWins

namespace Generation

/-- The associations stand in the order of the functions and have their ids. -/
def IsParallel (g : Generation) : Prop :=
  g.associations.map (·.id) = g.document.functions.map (·.id)

instance (g : Generation) : Decidable g.IsParallel :=
  inferInstanceAs (Decidable (g.associations.map (·.id) = g.document.functions.map (·.id)))

/-- A generation that comes from several others by keeping the first of the functions and the enums
that clash, where the rows show all of them in order. -/
structure IsFirstWinsMerge (gs : List Generation) (m : Generation) (rows : List (Row Offer))
    (enumRows : List (Row EnumOffer)) : Prop where
  offered : rows.map (·.offer) = allOffers gs
  entries_offered : rows.map (·.offer.entry) = gs.flatMap (·.document.functions)
  associations_offered : rows.map (·.offer.association) = gs.flatMap (·.associations)
  /-- The rivals of a function are the kept ones before it with the same id or name. -/
  rivals : ∀ before row after, rows = before ++ row :: after →
    row.rivals = (kept before).filter fun k =>
      Text.lowerCase k.entry.id = Text.lowerCase row.offer.entry.id
        ∨ k.entry.name = row.offer.entry.name
  functions : m.document.functions = (kept rows).map (·.entry)
  associations : m.associations = (kept rows).map (·.association)
  parallel : m.IsParallel
  enums_offered : enumRows.map (·.offer) = allEnumOffers gs
  enum_entries_offered : enumRows.map (·.offer.entry) = gs.flatMap (·.document.enums)
  first_enum : ∀ before row after, enumRows = before ++ row :: after →
    (row.isKept = true ↔ ∀ r ∈ before,
      Text.lowerCase r.offer.entry.id ≠ Text.lowerCase row.offer.entry.id)
  enums : m.document.enums = (kept enumRows).map (·.entry)
  inputs : m.inputs = gs.flatMap (·.inputs)
  diagnostics : m.diagnostics = gs.zipIdx.flatMap fun (g, i) =>
    g.diagnostics
      ++ ((rows.filter (·.offer.source = i)).flatMap Offer.errors
        ++ (enumRows.filter (·.offer.source = i)).flatMap EnumOffer.errors)
  /-- A key that is held is reported with the one kept function before that holds it. -/
  errors : ∀ before row after, rows = before ++ row :: after →
    Offer.errors row =
      ((kept before).filter fun k =>
          Text.lowerCase k.entry.id = Text.lowerCase row.offer.entry.id).map row.offer.idError
        ++ ((kept before).filter fun k => k.entry.name = row.offer.entry.name).map
          row.offer.nameError
  /-- Every function that is left out is reported. -/
  reported : ∀ row ∈ rows, row.isKept = false → Offer.errors row ≠ []
  one_id_owner : ∀ id, (kept rows).countP
    (fun k => Text.lowerCase k.entry.id = Text.lowerCase id) ≤ 1
  one_name_owner : ∀ name, (kept rows).countP (fun k => k.entry.name = name) ≤ 1
  ids_distinct : m.document.functions.Pairwise fun f g => Text.lowerCase f.id ≠ Text.lowerCase g.id
  names_distinct : m.document.functions.Pairwise fun f g => f.name ≠ g.name
  enum_ids_distinct : m.document.enums.Pairwise fun d e => Text.lowerCase d.id ≠ Text.lowerCase e.id

theorem functionRows_isLedger (gs : List Generation) :
    IsLedger Offer.Clashes [] (functionRows gs) :=
  ledger_isLedger _ _ _

theorem functionRows_offers (gs : List Generation) :
    (functionRows gs).map (·.offer) = allOffers gs :=
  ledger_offers ..

theorem enumRows_offers (gs : List Generation) :
    (enumRows gs).map (·.offer) = allEnumOffers gs :=
  ledger_offers ..

theorem kept_functions_pairwise (gs : List Generation) :
    (kept (functionRows gs)).Pairwise fun a b => ¬ a.Clashes b :=
  kept_pairwise Offer.Clashes [] .nil (allOffers gs)

theorem kept_enums_pairwise (gs : List Generation) :
    (kept (enumRows gs)).Pairwise fun a b => ¬ a.Clashes b :=
  kept_pairwise EnumOffer.Clashes [] .nil (allEnumOffers gs)

theorem IsParallel.length_eq {g : Generation} (h : g.IsParallel) :
    g.document.functions.length = g.associations.length := by
  have := congrArg List.length h
  simpa using this.symm

theorem IsParallel.offers_entries {g : Generation} (h : g.IsParallel) (i : Nat) :
    (g.offers i).map (·.entry) = g.document.functions := by
  simp only [offers, List.map_map]
  exact List.map_fst_zip (Nat.le_of_eq h.length_eq)

theorem IsParallel.offers_associations {g : Generation} (h : g.IsParallel) (i : Nat) :
    (g.offers i).map (·.association) = g.associations := by
  simp only [offers, List.map_map]
  exact List.map_snd_zip (Nat.le_of_eq h.length_eq.symm)

theorem enumOffers_entries (g : Generation) (i : Nat) :
    (g.enumOffers i).map (·.entry) = g.document.enums := by
  rw [enumOffers, List.map_map]
  exact List.map_id _

theorem IsParallel.id_eq {g : Generation} (h : g.IsParallel) {i : Nat} {o : Offer}
    (ho : o ∈ g.offers i) : o.association.id = o.entry.id := by
  obtain ⟨⟨f, a⟩, hmem, rfl⟩ := List.mem_map.mp ho
  obtain ⟨n, hn, heq⟩ := List.mem_iff_getElem.mp hmem
  have hids := congrArg (fun ids : List String => ids[n]?) h
  simp only [List.length_zip] at hn
  simp only [List.getElem_zip, Prod.mk.injEq] at heq
  simp only [List.getElem?_map, List.getElem?_eq_getElem (show n < g.associations.length by omega),
    List.getElem?_eq_getElem (show n < g.document.functions.length by omega), heq.1, heq.2,
    Option.map_some, Option.some.injEq] at hids
  exact hids

/-- Keys of which no two are held by the same kept function are pairwise distinct. -/
theorem kept_entries_pairwise {gs : List Generation} {r : FunctionEntry → FunctionEntry → Prop}
    (h : ∀ a b : Offer, ¬ a.Clashes b → r a.entry b.entry) :
    (merge gs).document.functions.Pairwise r := by
  rw [merge_functions, List.pairwise_map]
  exact (kept_functions_pairwise gs).imp (h _ _)

theorem merge_ids_pairwise (gs : List Generation) :
    (merge gs).document.functions.Pairwise fun f g =>
      Text.lowerCase f.id ≠ Text.lowerCase g.id :=
  kept_entries_pairwise fun _ _ h hid => h (.inl hid)

theorem merge_names_pairwise (gs : List Generation) :
    (merge gs).document.functions.Pairwise fun f g => f.name ≠ g.name :=
  kept_entries_pairwise fun _ _ h hname => h (.inr hname)

theorem merge_enum_ids_pairwise (gs : List Generation) :
    (merge gs).document.enums.Pairwise fun d e => Text.lowerCase d.id ≠ Text.lowerCase e.id := by
  rw [merge_enums, List.pairwise_map]
  exact kept_enums_pairwise gs

/-- A merged function comes from one of the generations. -/
theorem exists_source {gs : List Generation} {f : FunctionEntry}
    (h : f ∈ (merge gs).document.functions) : ∃ g ∈ gs, f ∈ g.document.functions := by
  rw [merge_functions] at h
  obtain ⟨o, ho, rfl⟩ := List.mem_map.mp h
  obtain ⟨i, hi, hmem⟩ := mem_batches.mp (mem_of_mem_kept _ ho)
  obtain ⟨⟨f, a⟩, hzip, rfl⟩ := List.mem_map.mp hmem
  exact ⟨gs[i], List.getElem_mem hi, (List.of_mem_zip hzip).1⟩

/-- The first enum of an id is the one that is merged. -/
theorem find?_merge_enums (gs : List Generation) (id : String) :
    (merge gs).document.enums.find? (fun e => Text.lowerCase e.id = Text.lowerCase id) =
      (gs.flatMap (·.document.enums)).find? fun e => Text.lowerCase e.id = Text.lowerCase id := by
  have hentries : (allEnumOffers gs).map (·.entry) = gs.flatMap (·.document.enums) :=
    map_batches fun g _ i => enumOffers_entries g i
  have hkept := find?_kept EnumOffer.Clashes
    (p := fun o => Text.lowerCase o.entry.id = Text.lowerCase id)
    (fun a b hab hb => decide_eq_true (hab.trans (of_decide_eq_true hb))) [] (allEnumOffers gs)
  rw [merge_enums, ← hentries, List.find?_map, List.find?_map]
  exact congrArg (Option.map (·.entry)) hkept

/-- Merging further generations takes nothing away. -/
theorem merge_functions_prefix (gs rest : List Generation) :
    (merge gs).document.functions <+: (merge (gs ++ rest)).document.functions :=
  (merge_isPrefix gs rest).functions

/-- A row of the ledger shows as rivals the kept offers that share a key. -/
theorem rivals_of_split {gs : List Generation} {before : List (Row Offer)} {row : Row Offer}
    {after : List (Row Offer)} (h : functionRows gs = before ++ row :: after) :
    row.rivals = (kept before).filter fun k => k.Clashes row.offer := by
  have hrow := functionRows_isLedger gs before row after h
  rw [hrow, List.nil_append]
  rfl

theorem countP_id_le_one (gs : List Generation) (id : String) :
    (kept (functionRows gs)).countP
      (fun k => Text.lowerCase k.entry.id = Text.lowerCase id) ≤ 1 := by
  refine countP_owner_le_one Offer.Clashes (fun a b ha hb => ?_) (kept_functions_pairwise gs)
  exact .inl ((of_decide_eq_true ha).trans (of_decide_eq_true hb).symm)

theorem countP_name_le_one (gs : List Generation) (name : String) :
    (kept (functionRows gs)).countP (fun k => k.entry.name = name) ≤ 1 := by
  refine countP_owner_le_one Offer.Clashes (fun a b ha hb => ?_) (kept_functions_pairwise gs)
  exact .inr ((of_decide_eq_true ha).trans (of_decide_eq_true hb).symm)

/-- The errors of a row name the owners of its keys among the functions kept before it. -/
theorem errors_of_split {gs : List Generation} {before : List (Row Offer)} {row : Row Offer}
    {after : List (Row Offer)} (h : functionRows gs = before ++ row :: after) :
    Offer.errors row =
      ((kept before).filter fun k =>
          Text.lowerCase k.entry.id = Text.lowerCase row.offer.entry.id).map row.offer.idError
        ++ ((kept before).filter fun k => k.entry.name = row.offer.entry.name).map
          row.offer.nameError := by
  have hrow : row = settle Offer.Clashes (kept before) row.offer :=
    functionRows_isLedger gs before row after h
  have hrivals : row.rivals = (settle Offer.Clashes (kept before) row.offer).rivals :=
    congrArg Row.rivals hrow
  have hbefore : ∀ p : Offer → Bool, (kept (functionRows gs)).countP p ≤ 1 →
      (kept before).filter p = ((kept before).find? p).toList := by
    intro p hp
    rw [h, kept_append, List.countP_append] at hp
    exact filter_eq_toList_find? (by omega)
  have hid := find?_rivals Offer.Clashes (kept before) row.offer
    (p := fun k => k.claim.SameId row.offer.claim) fun k hk => .inl (of_decide_eq_true hk)
  have hname := find?_rivals Offer.Clashes (kept before) row.offer
    (p := fun k => k.claim.SameName row.offer.claim) fun k hk => .inr (of_decide_eq_true hk)
  rw [Offer.errors, hrivals, hid, hname, hbefore _ (countP_id_le_one gs row.offer.entry.id),
    hbefore _ (countP_name_le_one gs row.offer.entry.name), Option.toList_map, Option.toList_map]
  rfl

/-- A function with a rival is reported for the id or for the name. -/
theorem errors_ne_nil {gs : List Generation} {row : Row Offer} (hrow : row ∈ functionRows gs)
    (hnot : row.isKept = false) : Offer.errors row ≠ [] := by
  obtain ⟨before, after, hsplit⟩ := List.append_of_mem hrow
  have hrivals := rivals_of_split hsplit
  obtain ⟨k, more, hk⟩ := List.exists_cons_of_ne_nil (l := row.rivals) (by
    intro hnil
    rw [(Row.isKept_iff row).mpr hnil] at hnot
    exact nomatch hnot)
  have hclash : k.Clashes row.offer := by
    have hmem : k ∈ (kept before).filter fun k => k.Clashes row.offer := by
      rw [← hrivals, hk]
      exact List.mem_cons_self
    simpa using (List.mem_filter.mp hmem).2
  intro hnil
  rw [Offer.errors, List.append_eq_nil_iff, Option.toList_eq_nil_iff, Option.toList_eq_nil_iff,
    Option.map_eq_none_iff, Option.map_eq_none_iff, List.find?_eq_none, List.find?_eq_none] at hnil
  rcases hclash with hid | hname
  · exact hnil.1 k (by simp [hk]) (decide_eq_true hid)
  · exact hnil.2 k (by simp [hk]) (decide_eq_true hname)

theorem merge_isParallel {gs : List Generation} (parallel : ∀ g ∈ gs, g.IsParallel) :
    (merge gs).IsParallel := by
  rw [IsParallel, merge_eq, List.map_map, List.map_map]
  refine List.map_congr_left fun o ho => ?_
  obtain ⟨i, hi, hmem⟩ := mem_batches.mp (mem_of_mem_kept _ ho)
  exact (parallel gs[i] (List.getElem_mem hi)).id_eq hmem

/-- Merging generations keeps exactly the first of their functions and enums that clash. -/
theorem merge_keeps_first (gs : List Generation) (parallel : ∀ g ∈ gs, g.IsParallel) :
    ∃ rows enumRows, IsFirstWinsMerge gs (merge gs) rows enumRows := by
  have hmerge := merge_eq gs
  have hentries : (allOffers gs).map (·.entry) = gs.flatMap (·.document.functions) :=
    map_batches fun g hg i => (parallel g hg).offers_entries i
  have hassociations : (allOffers gs).map (·.association) = gs.flatMap (·.associations) :=
    map_batches fun g hg i => (parallel g hg).offers_associations i
  have henums : (allEnumOffers gs).map (·.entry) = gs.flatMap (·.document.enums) :=
    map_batches fun g _ i => enumOffers_entries g i
  have hids : ∀ o ∈ kept (functionRows gs), o.association.id = o.entry.id := by
    intro o ho
    obtain ⟨i, hi, hmem⟩ := mem_batches.mp (mem_of_mem_kept _ ho)
    exact (parallel gs[i] (List.getElem_mem hi)).id_eq hmem
  refine ⟨functionRows gs, enumRows gs, {
    offered := functionRows_offers gs
    entries_offered := ?_
    associations_offered := ?_
    rivals := fun before row after h => rivals_of_split h
    functions := merge_functions gs
    associations := by rw [hmerge]
    parallel := ?_
    enums_offered := enumRows_offers gs
    enum_entries_offered := ?_
    first_enum := ?_
    enums := merge_enums gs
    inputs := by rw [hmerge]
    diagnostics := by rw [hmerge]; rfl
    errors := fun before row after h => errors_of_split h
    reported := fun row hrow hnot => errors_ne_nil hrow hnot
    one_id_owner := countP_id_le_one gs
    one_name_owner := countP_name_le_one gs
    ids_distinct := merge_ids_pairwise gs
    names_distinct := merge_names_pairwise gs
    enum_ids_distinct := merge_enum_ids_pairwise gs }⟩
  · rw [← hentries, ← functionRows_offers, List.map_map]
    rfl
  · rw [← hassociations, ← functionRows_offers, List.map_map]
    rfl
  · rw [hmerge, IsParallel, List.map_map, List.map_map]
    exact List.map_congr_left hids
  · rw [← henums, ← enumRows_offers, List.map_map]
    rfl
  · intro before row after h
    exact isKept_iff_of_trans EnumOffer.Clashes (fun hab hbc => Eq.trans hab hbc) h

/-- Two files that both declare an addition. -/
theorem merge_keeps_first_addition :
    let entry id : FunctionEntry := { (default : FunctionEntry) with id, name := id }
    let first : Generation :=
      { document := { functions := [entry "ADD"] }, associations := [⟨"ADD", "add"⟩] }
    let second : Generation :=
      { document := { functions := [entry "Add", entry "SUB"] }
        associations := [⟨"Add", "plus"⟩, ⟨"SUB", "sub"⟩] }
    (∀ g ∈ [first, second], g.IsParallel) ∧
      ∃ rows enumRows, IsFirstWinsMerge [first, second] (merge [first, second]) rows enumRows := by
  intro entry first second
  have hparallel : ∀ g ∈ [first, second], g.IsParallel := by decide
  exact ⟨hparallel, merge_keeps_first [first, second] hparallel⟩

/-- The rule for the functions leaves no choice: it determines the rows. -/
theorem IsFirstWinsMerge.rows_eq {gs : List Generation} {m : Generation} {rows : List (Row Offer)}
    {enumRows : List (Row EnumOffer)} (h : IsFirstWinsMerge gs m rows enumRows) :
    rows = functionRows gs := by
  have hledger : IsLedger Offer.Clashes [] rows := by
    rintro before ⟨offer, rivals⟩ after hsplit
    exact congrArg (Row.mk offer) (h.rivals before ⟨offer, rivals⟩ after hsplit)
  rw [hledger.eq_ledger, h.offered]
  rfl

end Generation

end CustomFunctions
