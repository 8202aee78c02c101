import IdlBind.Proofs.WebIdl.Reading
import IdlBind.Proofs.WebIdl.Splitting
import Mathlib.Data.List.Induction
import Mathlib.Data.List.Nodup

set_option autoImplicit false

/-! # Merged definitions

A document is a table with one entry for each kind and name, in the order in which these were first
met. To insert a definition changes the entry with its key and no other (`lookup?_insert`). An entry
holds all blocks of the definitions with its key, and none besides (`isMergeOf_of_mem_insertAll`):
the first definition that is not partial goes to the front, all others keep their order. -/

namespace IdlBind.WebIdl

/-! ## Keys -/

/-- What distinguishes the entries of a document. -/
def Definition.key (d : Definition) : DefinitionKind × String := (d.kind, d.name)

/-- The keys of the entries in order. -/
def Document.keys (doc : Document) : List (DefinitionKind × String) :=
  doc.definitions.map Definition.key

/-- The first entry with a key. -/
def Document.lookup? (doc : Document) (key : DefinitionKind × String) : Option Definition :=
  doc.definitions.find? (·.key = key)

@[simp] theorem Document.keys_empty : empty.keys = [] := rfl

@[simp] theorem Definition.key_merge (old new : Definition) : (old.merge new).key = old.key := rfl

theorem Definition.sameKey_iff {a b : Definition} : a.sameKey b = true ↔ a.key = b.key := by
  simp [sameKey, key]

theorem Document.key_of_lookup? {doc : Document} {key : DefinitionKind × String} {e : Definition}
    (h : doc.lookup? key = some e) : e.key = key := by
  have hkey := List.find?_some h
  exact of_decide_eq_true hkey

/-! ## One more definition -/

variable (doc : Document) (d : Definition)

/-- A definition with a key that is new makes an entry at the end. -/
theorem keys_insert :
    (doc.insert d).keys = if d.key ∈ doc.keys then doc.keys else doc.keys ++ [d.key] := by
  obtain ⟨es⟩ := doc
  show (Document.insertInto d es).map Definition.key
    = if d.key ∈ es.map Definition.key then es.map Definition.key
      else es.map Definition.key ++ [d.key]
  induction es with
  | nil => rfl
  | cons e es ih =>
    rw [Document.insertInto]
    by_cases hkey : e.key = d.key
    · rw [if_pos (Definition.sameKey_iff.2 hkey), List.map_cons, Definition.key_merge,
        List.map_cons, if_pos (by simp [hkey])]
    · rw [if_neg fun h => hkey (Definition.sameKey_iff.1 h), List.map_cons, ih, List.map_cons]
      by_cases hmem : d.key ∈ es.map Definition.key
      · rw [if_pos hmem, if_pos (List.mem_cons_of_mem _ hmem)]
      · rw [if_neg hmem, if_neg (by simp [hmem, Ne.symm hkey]), List.cons_append]

/-- A definition is merged into the entry with its key, or makes one. All others stay. -/
theorem lookup?_insert (key : DefinitionKind × String) :
    (doc.insert d).lookup? key
      = if d.key = key then some ((doc.lookup? key).elim d (·.merge d)) else doc.lookup? key := by
  obtain ⟨es⟩ := doc
  show (Document.insertInto d es).find? (·.key = key)
    = if d.key = key then some ((es.find? (·.key = key)).elim d (·.merge d))
      else es.find? (·.key = key)
  induction es with
  | nil =>
    by_cases hkey : d.key = key <;> simp [Document.insertInto, hkey]
  | cons e es ih =>
    rw [Document.insertInto]
    by_cases hsame : e.key = d.key
    · rw [if_pos (Definition.sameKey_iff.2 hsame)]
      by_cases hkey : d.key = key <;> simp [hsame, hkey]
    · rw [if_neg fun h => hsame (Definition.sameKey_iff.1 h)]
      by_cases hkey : e.key = key
      · have hother : d.key ≠ key := fun h => hsame (hkey.trans h.symm)
        simp [hkey, hother]
      · rw [List.find?_cons_of_neg (by simpa using hkey), ih,
          List.find?_cons_of_neg (by simpa using hkey)]

variable {doc d}

/-- What an entry holds depends on what it held before. -/
theorem lookup?_insertAll_congr {doc' : Document} {key : DefinitionKind × String}
    (h : doc'.lookup? key = doc.lookup? key) (found : List Definition) :
    (doc'.insertAll found).lookup? key = (doc.insertAll found).lookup? key := by
  induction found generalizing doc doc' with
  | nil => exact h
  | cons d ds ih =>
    have hinsert : (doc'.insert d).lookup? key = (doc.insert d).lookup? key := by
      rw [lookup?_insert, lookup?_insert, h]
    exact ih hinsert

/-- Definitions with other keys do not change an entry. -/
theorem lookup?_insertAll_of_forall {key : DefinitionKind × String} {found : List Definition}
    (h : ∀ d ∈ found, d.key ≠ key) : (doc.insertAll found).lookup? key = doc.lookup? key := by
  induction found generalizing doc with
  | nil => rfl
  | cons d ds ih =>
    obtain ⟨hd, hds⟩ := List.forall_mem_cons.1 h
    calc ((doc.insert d).insertAll ds).lookup? key
        = (doc.insert d).lookup? key := ih hds
      _ = doc.lookup? key := by rw [lookup?_insert, if_neg hd]

/-! ## Keys of merged definitions -/

/-- There is one entry for each key, in the order in which the keys were first met. -/
theorem keys_insertAll (found : List Definition) :
    (Document.empty.insertAll found).keys = (found.map Definition.key).eraseDups := by
  induction found using List.reverseRecOn with
  | nil => rfl
  | append_singleton found d ih =>
    have hinsert : Document.empty.insertAll (found ++ [d])
        = (Document.empty.insertAll found).insert d := Document.insertAll_append _ _ _
    rw [hinsert, keys_insert, ih, List.map_append, List.eraseDups_append, List.map_singleton]
    generalize found.map Definition.key = keys
    by_cases hmem : d.key ∈ keys
    · rw [if_pos (List.mem_eraseDups.2 hmem)]
      simp [List.removeAll, hmem]
    · rw [if_neg (mt List.mem_eraseDups.1 hmem)]
      simp [List.removeAll, hmem, List.eraseDups_cons]

theorem nodup_keys_insert (h : doc.keys.Nodup) : (doc.insert d).keys.Nodup := by
  rw [keys_insert]
  by_cases hmem : d.key ∈ doc.keys
  · rw [if_pos hmem]
    exact h
  · rw [if_neg hmem]
    exact List.concat_eq_append ▸ h.concat hmem

theorem nodup_keys_insertAll (h : doc.keys.Nodup) (found : List Definition) :
    (doc.insertAll found).keys.Nodup := by
  induction found generalizing doc with
  | nil => exact h
  | cons d ds ih => exact ih (nodup_keys_insert h)

theorem lookup?_of_mem {e : Definition} (h : doc.keys.Nodup) (he : e ∈ doc.definitions) :
    doc.lookup? e.key = some e := by
  have hsome : (doc.lookup? e.key).isSome = true :=
    List.find?_isSome.2 ⟨e, he, decide_eq_true rfl⟩
  obtain ⟨f, hf⟩ := Option.isSome_iff_exists.1 hsome
  have hsame : f = e :=
    List.inj_on_of_nodup_map h (List.mem_of_find?_eq_some hf) he (Document.key_of_lookup? hf)
  rw [hf, hsame]

/-! ## The blocks of an entry -/

/-- The definitions with the first one that is not partial at the front. -/
def leadFirst (ds : List Definition) : List Definition :=
  (ds.find? (!·.isPartial)).toList ++ ds.eraseP (!·.isPartial)

theorem leadFirst_of_forall {ds : List Definition} (h : ∀ d ∈ ds, d.isPartial = true) :
    leadFirst ds = ds := by
  have hfind : ds.find? (!·.isPartial) = none :=
    List.find?_eq_none.2 fun d hd => by simp [h d hd]
  rw [leadFirst, hfind, List.eraseP_of_forall_not fun d hd => by simp [h d hd]]
  rfl

theorem leadFirst_append_cons {before after : List Definition} {lead : Definition}
    (hbefore : ∀ d ∈ before, d.isPartial = true) (hlead : lead.isPartial = false) :
    leadFirst (before ++ lead :: after) = lead :: (before ++ after) := by
  have hfind : before.find? (!·.isPartial) = none :=
    List.find?_eq_none.2 fun d hd => by simp [hbefore d hd]
  rw [leadFirst, List.find?_append, hfind,
    List.eraseP_append_right _ fun d hd => by simp [hbefore d hd]]
  simp [hlead]

/-- Either all definitions are partial or there is a first one that is not. -/
theorem forall_isPartial_or_exists_lead (ds : List Definition) :
    (∀ d ∈ ds, d.isPartial = true) ∨ ∃ before lead after, ds = before ++ lead :: after ∧
      (∀ d ∈ before, d.isPartial = true) ∧ lead.isPartial = false := by
  cases hfind : ds.find? (!·.isPartial) with
  | none =>
    left
    intro d hd
    simpa using List.find?_eq_none.1 hfind d hd
  | some lead =>
    right
    obtain ⟨hlead, before, after, hds, hbefore⟩ := List.find?_eq_some_iff_append.1 hfind
    exact ⟨before, lead, after, hds, by simpa using hbefore, by simpa using hlead⟩

theorem leadFirst_perm (ds : List Definition) : (leadFirst ds).Perm ds := by
  rcases forall_isPartial_or_exists_lead ds with hall | ⟨before, lead, after, rfl, hbefore, hlead⟩
  · rw [leadFirst_of_forall hall]
  · rw [leadFirst_append_cons hbefore hlead]
    exact List.perm_middle.symm

/-- A definition behind others goes to the front if it is the first one that is not partial. -/
theorem leadFirst_append_singleton (ds : List Definition) (d : Definition) :
    leadFirst (ds ++ [d])
      = if ds.all Definition.isPartial && !d.isPartial then d :: leadFirst ds
        else leadFirst ds ++ [d] := by
  rcases forall_isPartial_or_exists_lead ds with hall | ⟨before, lead, after, rfl, hbefore, hlead⟩
  · rw [List.all_eq_true.2 hall, leadFirst_of_forall hall]
    cases hd : d.isPartial with
    | false =>
      rw [leadFirst_append_cons hall hd, List.append_nil]
      rfl
    | true =>
      refine leadFirst_of_forall fun e he => ?_
      rcases List.mem_append.1 he with he | he
      · exact hall e he
      · rw [List.mem_singleton.1 he, hd]
  · rw [leadFirst_append_cons hbefore hlead, List.append_assoc, List.cons_append,
      leadFirst_append_cons hbefore hlead]
    simp [hlead]

/-- An entry that was merged from some definitions, in this order. -/
structure Definition.IsMergeOf (e : Definition) (parts : List Definition) : Prop where
  key : ∀ d ∈ parts, d.key = e.key
  nonempty : parts ≠ []
  blocks : e.blocks = (leadFirst parts).flatMap Definition.blocks
  parent : e.parent? = parts.findSome? Definition.parent?
  isPartial : e.isPartial = parts.all Definition.isPartial

theorem Definition.isMergeOf_singleton (d : Definition) : d.IsMergeOf [d] := by
  have hlead : leadFirst [d] = [d] := by
    rw [← List.nil_append [d], leadFirst_append_singleton]
    split <;> rfl
  refine ⟨by simp, by simp, ?_, ?_, by simp⟩
  · rw [hlead, List.flatMap_singleton]
  · rw [List.findSome?_singleton]

theorem Definition.IsMergeOf.merge {e d : Definition} {parts : List Definition}
    (h : e.IsMergeOf parts) (hkey : d.key = e.key) : (e.merge d).IsMergeOf (parts ++ [d]) := by
  refine ⟨?_, by simp, ?_, ?_, ?_⟩
  · intro f hf
    rcases List.mem_append.1 hf with hf | hf
    · exact h.key f hf
    · exact List.mem_singleton.1 hf ▸ hkey
  · rw [leadFirst_append_singleton, ← h.isPartial]
    simp only [Definition.merge]
    by_cases hleads : (e.isPartial && !d.isPartial) = true
    · rw [if_pos hleads, if_pos hleads, List.flatMap_cons, h.blocks]
    · rw [if_neg hleads, if_neg hleads, List.flatMap_append, List.flatMap_singleton, h.blocks]
  · rw [List.findSome?_append, ← h.parent, List.findSome?_singleton]
    rfl
  · rw [List.all_append, ← h.isPartial]
    simp [Definition.merge]

/-- The entry with a key is merged from all definitions with it. There is none if there are no such
    definitions. -/
theorem isMergeOf_lookup?_insertAll (found : List Definition) (key : DefinitionKind × String) :
    match (Document.empty.insertAll found).lookup? key with
    | none => found.filter (·.key = key) = []
    | some e => e.IsMergeOf (found.filter (·.key = key)) := by
  induction found using List.reverseRecOn with
  | nil => rfl
  | append_singleton found d ih =>
    have hinsert : Document.empty.insertAll (found ++ [d])
        = (Document.empty.insertAll found).insert d := Document.insertAll_append _ _ _
    rw [hinsert, lookup?_insert, List.filter_append]
    by_cases hkey : d.key = key
    · rw [if_pos hkey, List.filter_singleton, decide_eq_true hkey]
      cases hentry : (Document.empty.insertAll found).lookup? key with
      | none =>
        rw [hentry] at ih
        rw [ih]
        exact d.isMergeOf_singleton
      | some e =>
        rw [hentry] at ih
        exact ih.merge (hkey.trans (Document.key_of_lookup? hentry).symm)
    · rw [if_neg hkey, List.filter_singleton, decide_eq_false hkey, cond_false, List.append_nil]
      exact ih

/-- Each entry is merged from all definitions with its key. -/
theorem isMergeOf_of_mem_insertAll {found : List Definition} {e : Definition}
    (he : e ∈ (Document.empty.insertAll found).definitions) :
    e.IsMergeOf (found.filter (·.key = e.key)) := by
  have hmerge := isMergeOf_lookup?_insertAll found e.key
  have hnodup : (Document.empty.insertAll found).keys.Nodup :=
    nodup_keys_insertAll (by simp) found
  rw [lookup?_of_mem hnodup he] at hmerge
  exact hmerge

/-! ## What is conserved -/

section

variable {e : Definition} {parts : List Definition} (h : e.IsMergeOf parts)
include h

theorem Definition.IsMergeOf.blocks_perm :
    e.blocks.Perm (parts.flatMap Definition.blocks) := by
  rw [h.blocks]
  exact (leadFirst_perm parts).flatMap_right _

theorem Definition.IsMergeOf.mem_blocks {block : List Member} (hblock : block ∈ e.blocks) :
    ∃ d ∈ parts, block ∈ d.blocks :=
  List.mem_flatMap.1 (h.blocks_perm.mem_iff.1 hblock)

/-- What holds of all definitions that are read holds of what is merged from them. -/
theorem Definition.IsMergeOf.isSound {valid : String → Bool}
    (hparts : ∀ d ∈ parts, d.IsSound valid) : e.IsSound valid := by
  obtain ⟨first, hfirst⟩ := List.exists_mem_of_ne_nil parts h.nonempty
  have hsame : ∀ d ∈ parts, d.kind = e.kind ∧ d.name = e.name :=
    fun d hd => Prod.mk.inj (h.key d hd)
  refine ⟨?_, ?_, ?_, ?_⟩
  · rw [← (hsame first hfirst).2]
    exact (hparts first hfirst).name
  · intro parent hparent
    rw [h.parent, Option.mem_toList] at hparent
    obtain ⟨d, hd, hsome⟩ := List.exists_of_findSome?_eq_some hparent
    exact (hparts d hd).parent parent (by simp [hsome])
  · intro hnil
    obtain ⟨block, hblock⟩ := List.exists_mem_of_ne_nil _ (hparts first hfirst).blocks
    have hmem := h.blocks_perm.mem_iff.2 (List.mem_flatMap.2 ⟨first, hfirst, hblock⟩)
    exact absurd (hnil ▸ hmem) List.not_mem_nil
  · intro block hblock m hm
    obtain ⟨d, hd, hmem⟩ := h.mem_blocks hblock
    rw [← (hsame d hd).1]
    exact (hparts d hd).member block hmem m hm

end

/-- What holds of each definition of a document of sources. -/
theorem isSound_of_mem_ofSources (sources : List String) :
    ∀ d ∈ (Document.ofSources sources).definitions, d.IsSound isIdentifier := by
  rw [ofSources_eq_insertAll]
  intro e he
  refine (isMergeOf_of_mem_insertAll he).isSound fun d hd => ?_
  obtain ⟨source, -, hsource⟩ := List.mem_flatMap.1 (List.mem_of_mem_filter hd)
  exact (isPart_of_mem_readSource d hsource).sound

/-- Merging definitions conserves their blocks. There is one entry for each kind and name, in the
    order in which these were first met. The blocks of an entry are those of the definitions with
    its key: first those of the first one that is not partial, if there is one, then all others as
    they were read. An entry has a parent if one of these definitions has, and it is one of theirs.
    The document of some sources is merged in this way from the definitions that are read from them,
    and each of these has one block. -/
theorem merging_conserves_blocks :
    (∀ found : List Definition,
      let entries := (Document.empty.insertAll found).definitions
      entries.map Definition.key = (found.map Definition.key).eraseDups ∧
      (entries.map Definition.key).Nodup ∧
      ∀ e ∈ entries,
        let parts := found.filter (·.key = e.key)
        e.blocks.Perm (parts.flatMap Definition.blocks) ∧
        (∀ before lead after, parts = before ++ lead :: after →
          (∀ d ∈ before, d.isPartial = true) → lead.isPartial = false →
          e.blocks = lead.blocks ++ (before ++ after).flatMap Definition.blocks) ∧
        ((∀ d ∈ parts, d.isPartial = true) → e.blocks = parts.flatMap Definition.blocks) ∧
        (e.parent?.isSome = true ↔ ∃ d ∈ parts, d.parent?.isSome = true) ∧
        ∀ parent, e.parent? = some parent → ∃ d ∈ parts, d.parent? = some parent) ∧
    ∀ sources : List String,
      Document.ofSources sources
        = Document.empty.insertAll (sources.flatMap (readSource · |>.1)) ∧
      ∀ source ∈ sources, ∀ d ∈ (readSource source).1, ∃ block, d.blocks = [block] := by
  constructor
  · intro found entries
    refine ⟨keys_insertAll found, nodup_keys_insertAll (by simp) found, ?_⟩
    intro e he parts
    have hmerge : e.IsMergeOf parts := isMergeOf_of_mem_insertAll he
    refine ⟨hmerge.blocks_perm, ?_, ?_, ?_, ?_⟩
    · intro before lead after hparts hbefore hlead
      rw [hmerge.blocks, hparts, leadFirst_append_cons hbefore hlead, List.flatMap_cons]
    · intro hall
      rw [hmerge.blocks, leadFirst_of_forall hall]
    · rw [hmerge.parent, List.findSome?_isSome_iff]
    · intro parent hparent
      rw [hmerge.parent] at hparent
      exact List.exists_of_findSome?_eq_some hparent
  · intro sources
    exact ⟨ofSources_eq_insertAll sources, fun source _ d hd =>
      (isPart_of_mem_readSource d hd).block⟩

/-- A partial interface, two that are not partial, and a dictionary with the same name. -/
def sheets : List Definition :=
  [⟨.interface, "Sheet", none, [[.stringifier]], true⟩,
   ⟨.dictionary, "Sheet", none, [[.attribute [] (.basic .long ⟨false, false, false⟩) "size"]],
    false⟩,
   ⟨.interface, "Sheet", some "Page", [[.attribute [] (.basic .any ⟨false, false, false⟩) "rows"]],
    false⟩,
   ⟨.interface, "Sheet", some "Card", [[]], false⟩]

/-- The block of the first interface that is not partial comes before that of the partial one. -/
theorem merging_conserves_blocks_sheets :
    ∃ e ∈ (Document.empty.insertAll sheets).definitions, ∃ first lead last,
      sheets.filter (·.key = e.key) = [first] ++ lead :: [last] ∧
      (∀ d ∈ [first], d.isPartial = true) ∧ lead.isPartial = false ∧ e.parent? = some "Page" ∧
      e.blocks = lead.blocks ++ ([first] ++ [last]).flatMap Definition.blocks := by
  have hentries : (Document.empty.insertAll sheets).definitions
      = [⟨.interface, "Sheet", some "Page",
          [[.attribute [] (.basic .any ⟨false, false, false⟩) "rows"], [.stringifier], []], false⟩,
         ⟨.dictionary, "Sheet", none,
          [[.attribute [] (.basic .long ⟨false, false, false⟩) "size"]], false⟩] := by rfl
  have hmem := hentries ▸ List.mem_cons_self
  have hpartial : ∀ d ∈ sheets.take 1, d.isPartial = true := by decide
  obtain ⟨-, hlead, -⟩ := (merging_conserves_blocks.1 sheets).2.2 _ hmem
  exact ⟨_, hmem, _, _, _, rfl, hpartial, rfl, rfl, hlead _ _ _ rfl hpartial rfl⟩

end IdlBind.WebIdl
