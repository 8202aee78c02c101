import IdlBind.Proofs.Backend.Duktape
import IdlBind.Proofs.Backend.Jsapi
import IdlBind.Proofs.Generation.Confinement

set_option autoImplicit false

/-! # Tables and bodies agree

For the members to which a name resolves in a document of sources, all backends define the stubs to
which their tables refer, and no others (`tables_agree`). -/

namespace IdlBind

open WebIdl (Document)

/-- How the text of each backend is read. -/
def Linkage.all : List Linkage := [Jsapi.linkage, Duktape.linkage]

theorem Linkage.backend_mem_all {l : Linkage} (hl : l ∈ Linkage.all) : l.backend ∈ Backend.all := by
  have hall : ∀ l ∈ Linkage.all, l.backend ∈ [Jsapi.backend, Duktape.backend] := by
    simp [Linkage.all, Jsapi.linkage, Duktape.linkage]
  exact hall l hl

theorem Linkage.lists_of_mem_all {l : Linkage} (hl : l ∈ Linkage.all) {d : Descriptor} {m : Members}
    (h : m.IsRead) (hm : d.members = .ok m) : l.Lists d m := by
  simp only [Linkage.all, List.mem_cons, List.not_mem_nil, or_false] at hl
  rcases hl with rfl | rfl
  · exact Jsapi.lists h hm
  · exact Duktape.lists h hm

/-- A section that lists members completes if the name resolves. -/
theorem failure?_emit_of_members {b : Backend} (hb : b ∈ Backend.all) {d : Descriptor} {m : Members}
    (hm : d.members = .ok m) {s : Section} (hs : s.listsMembers = true) :
    (b.emit s d).failure? = none := by
  obtain ⟨emit, hnone, hemit⟩ := emit_eq_ofExcept (d := d) hb hs
  rw [hemit, hm, Emission.failure?_ofExcept_ok]
  exact hnone m

/-- For the members to which a name resolves in a document of sources, every backend emits bodies
    and tables that agree. The bodies of methods and the rows of the method table are those of the
    operations with a name, in order. The rows of the property table are those of the attributes, in
    order; each names a setter unless the attribute is read-only. The bodies of accessors are, row
    by row, the setter if the row names one, and the getter right behind it. So each stub has as
    many bodies as rows refer to it. -/
theorem tables_agree {sources : List String} {d : Descriptor} {m : Members}
    (hparsed : d.definitions = (Document.ofSources sources).toNodes)
    (hresolve : resolve d.definitions d.interface = .ok m) :
    Linkage.all.map (·.backend) = Backend.all ∧ ∀ l ∈ Linkage.all,
      (∀ s, s.listsMembers = true → (l.backend.emit s d).failure? = none) ∧
      l.bodies d .operatorBodies
        = m.identifiedOperations.map (fun p => l.method p.1.interface p.2) ∧
      l.methodEntries d = m.identifiedOperations.map (fun p => l.method p.1.interface p.2) ∧
      l.propertyEntries d = m.attributes.map (fun a =>
        ⟨l.label a.name, l.getter a.interface a.name,
          if a.readOnly then none else some (l.setter a.interface a.name)⟩) ∧
      l.bodies d .propertyBodies
        = (l.propertyEntries d).flatMap (fun e => e.setter?.toList ++ [e.getter]) ∧
      ∀ stub, (l.bodies d .operatorBodies ++ l.bodies d .propertyBodies).count stub
        = (l.methodEntries d ++
          (l.propertyEntries d).flatMap fun e => e.setter?.toList ++ [e.getter]).count stub := by
  have hm := members_of_ok hresolve
  rw [hparsed] at hresolve
  obtain ⟨-, hread⟩ := isRead_of_resolve hresolve
  refine ⟨rfl, fun l hl => ?_⟩
  obtain ⟨hmethods, haccessors, hentries, hrows⟩ := Linkage.lists_of_mem_all hl hread hm
  have hbodies : l.bodies d .propertyBodies
      = (l.propertyEntries d).flatMap PropertyEntry.stubs := by
    rw [haccessors, hrows, List.flatMap_map]
  refine ⟨fun s hs => failure?_emit_of_members (Linkage.backend_mem_all hl) hm hs, hmethods,
    hentries, hrows, hbodies, fun stub => ?_⟩
  rw [hmethods, hbodies, hentries]
  rfl

/-- A deck of cards: a partial definition in front of the one that it adds to, with a parent. -/
def deckSource : String :=
  "partial interface Deck \x7b readonly attribute long size; getter long (); \x7d;
   interface Deck : Base \x7b void draw(); attribute long size; \x7d;
   interface Base \x7b void draw(); stringifier; \x7d;"

/-- What is bound. -/
def deck : Descriptor where
  statements := []
  definitions := (Document.ofSources [deckSource]).toNodes
  block := .list .binding []
  name := "deck"
  interface := "Deck"
  bindingType? := none

/-- The type of the size. -/
def sizeType : Node := .list .type [.int .typeBase WebIdl.BaseType.long.code]

/-- The members of a deck. -/
def deckMembers : Members where
  kind := .interface
  chain := ["Deck", "Base"]
  blocks :=
    [⟨"Deck", [.operation ⟨"Deck", some "draw", [], []⟩,
        .attribute ⟨"Deck", "size", false, some sizeType⟩]⟩,
     ⟨"Deck", [.attribute ⟨"Deck", "size", true, some sizeType⟩,
        .operation ⟨"Deck", none, [.getter], []⟩]⟩,
     ⟨"Base", [.operation ⟨"Base", some "draw", [], []⟩,
        .operation ⟨"Base", none, [.stringifier], []⟩]⟩]

/-- An operation that the parent has as well, and an attribute that is read-only in one block. -/
theorem tables_agree_deck : deck.definitions = (Document.ofSources [deckSource]).toNodes ∧
    resolve deck.definitions deck.interface = .ok deckMembers ∧
    Duktape.linkage.bodies deck .operatorBodies = ["dukky_Deck_draw", "dukky_Base_draw"] ∧
    Duktape.linkage.methodEntries deck = ["dukky_Deck_draw", "dukky_Base_draw"] ∧
    Duktape.linkage.propertyEntries deck
      = [⟨"size", "dukky_Deck_size_getter", some "dukky_Deck_size_setter"⟩,
         ⟨"size", "dukky_Deck_size_getter", none⟩] ∧
    Duktape.linkage.bodies deck .propertyBodies
      = ["dukky_Deck_size_setter", "dukky_Deck_size_getter", "dukky_Deck_size_getter"] := by
  have hresolve : resolve deck.definitions deck.interface = .ok deckMembers := by decide +kernel
  have hparsed : deck.definitions = (Document.ofSources [deckSource]).toNodes := rfl
  obtain ⟨-, hagree⟩ := tables_agree hparsed hresolve
  obtain ⟨-, hmethods, hentries, hrows, hbodies, -⟩ :=
    hagree Duktape.linkage (by simp [Linkage.all])
  rw [hbodies, hmethods, hentries, hrows]
  exact ⟨hparsed, hresolve, by decide +kernel, by decide +kernel, by decide +kernel,
    by decide +kernel⟩

end IdlBind
