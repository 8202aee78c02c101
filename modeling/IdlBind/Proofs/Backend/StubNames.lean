import IdlBind.Proofs.Backend.Jsapi
import IdlBind.Proofs.Generation.Confinement
import Mathlib.Data.List.Forall2

set_option autoImplicit false

/-! # Names of stubs for SpiderMonkey

The name of a stub is a macro for its role with the name of the member as the argument, in which
hyphens have become underscores. It shows neither the definition that declares the member nor which
of the two characters was written. So stubs of one role have the same name as soon as the names of
their members have the same words, and only then (`stub_names_equal_iff`). -/

namespace IdlBind

namespace CName

/-! ## Names with the same words -/

/-- Hyphens and underscores join the words of a name. -/
def joinsWords (c : Char) : Bool := c == '-' || c == '_'

/-- Names that differ at most in the characters that join their words. -/
def SameWords (x y : String) : Prop :=
  List.Forall₂ (fun c d => c = d ∨ joinsWords c = true ∧ joinsWords d = true) x.toList y.toList

instance (x y : String) : Decidable (SameWords x y) :=
  inferInstanceAs (Decidable (List.Forall₂ _ x.toList y.toList))

/-- The character that stands for a character of a name. -/
def identifierChar (c : Char) : Char := if c.isAlphanum || c == '_' then c else '_'

theorem identifierChar_eq_iff {c d : Char} (hc : Lexer.continuesIdent c = true)
    (hd : Lexer.continuesIdent d = true) :
    identifierChar c = identifierChar d ↔ c = d ∨ joinsWords c = true ∧ joinsWords d = true := by
  have hkept : ∀ {e : Char}, e.isAlphanum = true → identifierChar e = e ∧ joinsWords e = false := by
    intro e he
    have hjoin : ∀ {j : Char}, j.isAlphanum = false → e ≠ j := by
      rintro j hj rfl
      exact absurd he (by simp [hj])
    refine ⟨by simp [identifierChar, he], ?_⟩
    simp [joinsWords, hjoin (j := '-') (by decide), hjoin (j := '_') (by decide)]
  have hjoined : ∀ {e : Char}, joinsWords e = true → identifierChar e = '_' := by
    intro e he
    obtain rfl | rfl : e = '-' ∨ e = '_' := by simpa [joinsWords] using he
    · decide
    · decide
  have hcases : ∀ {e : Char}, Lexer.continuesIdent e = true →
      e.isAlphanum = true ∨ joinsWords e = true := by
    intro e he
    simp only [Lexer.continuesIdent, Bool.or_eq_true] at he
    rcases he with (halphanum | hunderscore) | hhyphen
    · exact .inl halphanum
    · exact .inr (by simp [joinsWords, hunderscore])
    · exact .inr (by simp [joinsWords, hhyphen])
  have hother : ∀ {e : Char}, e.isAlphanum = true → e ≠ '_' := by
    rintro e he rfl
    exact absurd he (by decide)
  rcases hcases hc with hc | hc <;> rcases hcases hd with hd | hd
  · simp [hkept hc, hkept hd]
  · simp [hkept hc, hjoined hd, hother hc, hd]
    rintro rfl
    exact absurd hd (by simp [(hkept hc).2])
  · simp [hkept hd, hjoined hc, (hother hd).symm, hc]
    rintro rfl
    exact absurd hc (by simp [(hkept hd).2])
  · simp [hjoined hc, hjoined hd, hc, hd]

theorem map_identifierChar_eq_iff {cs ds : List Char}
    (hcs : ∀ c ∈ cs, Lexer.continuesIdent c = true)
    (hds : ∀ d ∈ ds, Lexer.continuesIdent d = true) :
    cs.map identifierChar = ds.map identifierChar ↔
      List.Forall₂ (fun c d => c = d ∨ joinsWords c = true ∧ joinsWords d = true) cs ds := by
  induction cs generalizing ds with
  | nil => cases ds <;> simp
  | cons c cs ih =>
    cases ds with
    | nil => simp
    | cons d ds =>
      obtain ⟨hc, hcs⟩ := List.forall_mem_cons.1 hcs
      obtain ⟨hd, hds⟩ := List.forall_mem_cons.1 hds
      rw [List.map_cons, List.map_cons, List.cons.injEq, List.forall₂_cons,
        identifierChar_eq_iff hc hd, ih hcs hds]

/-- Identifiers become the same name in C exactly if they have the same words. -/
theorem identifier_eq_iff {x y : String} (hx : isIdentifier x = true) (hy : isIdentifier y = true) :
    identifier x = identifier y ↔ SameWords x y := by
  have hchars : ∀ {z : String}, isIdentifier z = true →
      ∀ c ∈ z.toList, Lexer.continuesIdent c = true := by
    intro z hz c hc
    by_contra hnot
    exact notMem_of_isIdentifier hz (eq_false_of_ne_true hnot) hc
  have hmap : ∀ z, (identifier z).toList = z.toList.map identifierChar := fun z =>
    String.toList_map
  rw [← String.toList_inj, hmap, hmap, map_identifierChar_eq_iff (hchars hx) (hchars hy), SameWords]

end CName

namespace Jsapi

open WebIdl (Document)

/-! ## Stubs of members -/

/-- What the stub of a member does. -/
inductive StubRole where
  | native
  | getter
  | setter
  deriving DecidableEq, Repr

/-- The macro that makes the name of a stub. -/
def StubRole.macroName : StubRole → String
  | .native => "JSAPI_NATIVE"
  | .getter => "JSAPI_PROPERTYGET"
  | .setter => "JSAPI_PROPERTYSET"

/-- A stub with the definition that declares its member, and the name of the member there. -/
structure MemberStub where
  role : StubRole
  interface : String
  member : String
  deriving DecidableEq, Repr

/-- The name of a stub. -/
def MemberStub.name (stub : MemberStub) : String :=
  macroUse stub.role.macroName (CName.identifier stub.member)

/-- The stubs of an attribute. -/
def accessorStubs (a : ResolvedAttribute) : List MemberStub :=
  (if a.readOnly then [] else [⟨.setter, a.interface, a.name⟩]) ++ [⟨.getter, a.interface, a.name⟩]

/-- The stubs for members, in the order of their bodies. -/
def memberStubs (m : Members) : Section → List MemberStub
  | .operatorBodies => m.identifiedOperations.map fun p => ⟨.native, p.1.interface, p.2⟩
  | .propertyBodies => m.attributes.flatMap accessorStubs
  | _ => []

variable {m : Members}

theorem map_name_accessorStubs (a : ResolvedAttribute) :
    (accessorStubs a).map MemberStub.name = (linkage.entry a).stubs := by
  unfold accessorStubs PropertyEntry.stubs Linkage.entry
  split <;> rfl

theorem isIdentifier_of_mem_memberStubs (h : m.IsRead) {s : Section} {stub : MemberStub}
    (hstub : stub ∈ memberStubs m s) : isIdentifier stub.member = true := by
  have hoperations : ∀ p ∈ m.identifiedOperations, isIdentifier p.2 = true := by
    intro p hp
    obtain ⟨o, ho, hpair⟩ := List.mem_filterMap.1 hp
    obtain ⟨name, hname, rfl⟩ := Option.map_eq_some_iff.1 hpair
    obtain ⟨b, hb, ho⟩ := List.mem_flatMap.1 ho
    exact ((h.block b hb).operations o ho).2 name hname
  have hattributes : ∀ a ∈ m.attributes, isIdentifier a.name = true := by
    intro a ha
    obtain ⟨b, hb, ha⟩ := List.mem_flatMap.1 ha
    exact ((h.block b hb).attributes a ha).2
  cases s with
  | operatorBodies =>
    obtain ⟨p, hp, rfl⟩ := List.mem_map.1 hstub
    exact hoperations p hp
  | propertyBodies =>
    obtain ⟨a, ha, hstub⟩ := List.mem_flatMap.1 hstub
    have hmember : stub.member = a.name := by
      unfold accessorStubs at hstub
      split at hstub <;> simp at hstub
      · rw [hstub]
      · rcases hstub with rfl | rfl <;> rfl
    exact hmember ▸ hattributes a ha
  | _ => exact absurd hstub List.not_mem_nil

/-- The name of a stub shows its role and the words of the member. -/
theorem MemberStub.name_eq_iff {a b : MemberStub} (ha : isIdentifier a.member = true)
    (hb : isIdentifier b.member = true) :
    a.name = b.name ↔ a.role = b.role ∧ CName.SameWords a.member b.member := by
  rw [← CName.identifier_eq_iff ha hb]
  constructor
  · intro h
    have hrole : a.role = b.role := by
      have hchars := congrArg String.toList h
      cases hroleA : a.role <;> cases hroleB : b.role <;>
        first
        | rfl
        | simp [MemberStub.name, macroUse, StubRole.macroName, hroleA, hroleB] at hchars
    rw [MemberStub.name, MemberStub.name, hrole, macroUse, macroUse] at h
    exact ⟨hrole, by simpa using h⟩
  · rintro ⟨hrole, hmember⟩
    rw [MemberStub.name, MemberStub.name, hrole, hmember]

/-- The bodies are those of the stubs of members. -/
theorem bodies_eq_names {d : Descriptor} (h : m.IsRead) (hm : d.members = .ok m) {s : Section}
    (hs : s ∈ [Section.operatorBodies, .propertyBodies]) :
    linkage.bodies d s = (memberStubs m s).map MemberStub.name := by
  have hlists := lists h hm
  rcases List.mem_pair.1 hs with rfl | rfl
  · rw [hlists.methodBodies, memberStubs, List.map_map]
    rfl
  · rw [hlists.accessorBodies, memberStubs, List.map_flatMap]
    simp only [map_name_accessorStubs]

/-- For the members to which a name resolves in a document of sources, the bodies are those of the
    stubs of all identified operations and of all attributes, in order. Two of them have the same
    name exactly if they have the same role and the names of their members have the same words. The
    definitions that declare the members make no difference. -/
theorem stub_names_equal_iff {sources : List String} {d : Descriptor} {m : Members}
    (hparsed : d.definitions = (Document.ofSources sources).toNodes)
    (hresolve : resolve d.definitions d.interface = .ok m) :
    (∀ s ∈ [Section.operatorBodies, .propertyBodies],
      linkage.bodies d s = (memberStubs m s).map MemberStub.name) ∧
    (∀ s s', ∀ a ∈ memberStubs m s, ∀ b ∈ memberStubs m s',
      a.name = b.name ↔ a.role = b.role ∧ CName.SameWords a.member b.member) := by
  have hm := members_of_ok hresolve
  rw [hparsed] at hresolve
  obtain ⟨-, hread⟩ := isRead_of_resolve hresolve
  refine ⟨fun s hs => bodies_eq_names hread hm hs, fun s s' a ha b hb => ?_⟩
  exact MemberStub.name_eq_iff (isIdentifier_of_mem_memberStubs hread ha)
    (isIdentifier_of_mem_memberStubs hread hb)

/-- A player adds operations to those of its parent, with a hyphen in place of an underscore, and
    has an attribute that its parent has as well. -/
def playerSource : String :=
  "interface Player : Media \x7b void play-back(); readonly attribute long volume; \x7d;
   interface Media \x7b void play_back(); attribute long volume; \x7d;"

/-- The player is bound. -/
def player : Descriptor where
  statements := []
  definitions := (Document.ofSources [playerSource]).toNodes
  block := .list .binding []
  name := "player"
  interface := "Player"
  bindingType? := none

/-- The type of the volume. -/
def volumeType : Node := .list .type [.int .typeBase WebIdl.BaseType.long.code]

/-- The members of the player. -/
def playerMembers : Members where
  kind := .interface
  chain := ["Player", "Media"]
  blocks :=
    [⟨"Player", [.operation ⟨"Player", some "play-back", [], []⟩,
        .attribute ⟨"Player", "volume", true, some volumeType⟩]⟩,
     ⟨"Media", [.operation ⟨"Media", some "play_back", [], []⟩,
        .attribute ⟨"Media", "volume", false, some volumeType⟩]⟩]

theorem resolve_player : resolve player.definitions player.interface = .ok playerMembers := by
  decide +kernel

/-- Names with the same words, and stubs of one role for a name that two definitions declare. -/
theorem stub_names_equal_iff_player :
    player.definitions = (Document.ofSources [playerSource]).toNodes ∧
    resolve player.definitions player.interface = .ok playerMembers ∧
    CName.SameWords "play-back" "play_back" ∧
    MemberStub.name ⟨.native, "Player", "play-back"⟩
      = MemberStub.name ⟨.native, "Media", "play_back"⟩ ∧
    linkage.bodies player .propertyBodies
      = ["JSAPI_PROPERTYGET(volume)", "JSAPI_PROPERTYSET(volume)",
        "JSAPI_PROPERTYGET(volume)"] := by
  have hparsed : player.definitions = (Document.ofSources [playerSource]).toNodes := rfl
  have hsame : CName.SameWords "play-back" "play_back" := by decide
  obtain ⟨hbodies, hnames⟩ := stub_names_equal_iff hparsed resolve_player
  refine ⟨hparsed, resolve_player, hsame, ?_, ?_⟩
  · exact (hnames .operatorBodies .operatorBodies _ (by decide) _ (by decide)).2 ⟨rfl, hsame⟩
  · rw [hbodies .propertyBodies (by decide)]
    decide +kernel

/-- Two natives have the same name though different definitions declare them under different
    names, and two getters though different definitions declare them. -/
theorem stubs_of_player_clash :
    player.definitions = (Document.ofSources [playerSource]).toNodes ∧
    resolve player.definitions player.interface = .ok playerMembers ∧
    memberStubs playerMembers .operatorBodies
      = [⟨.native, "Player", "play-back"⟩, ⟨.native, "Media", "play_back"⟩] ∧
    linkage.bodies player .operatorBodies = ["JSAPI_NATIVE(play_back)", "JSAPI_NATIVE(play_back)"] ∧
    memberStubs playerMembers .propertyBodies
      = [⟨.getter, "Player", "volume"⟩, ⟨.setter, "Media", "volume"⟩,
        ⟨.getter, "Media", "volume"⟩] ∧
    linkage.bodies player .propertyBodies
      = ["JSAPI_PROPERTYGET(volume)", "JSAPI_PROPERTYSET(volume)",
        "JSAPI_PROPERTYGET(volume)"] := by
  have hparsed : player.definitions = (Document.ofSources [playerSource]).toNodes := rfl
  have hresolve := resolve_player
  rw [hparsed] at hresolve
  obtain ⟨-, hread⟩ := isRead_of_resolve hresolve
  have hbodies : ∀ s ∈ [Section.operatorBodies, .propertyBodies],
      linkage.bodies player s = (memberStubs playerMembers s).map MemberStub.name :=
    fun s hs => bodies_eq_names hread (members_of_ok resolve_player) hs
  refine ⟨hparsed, resolve_player, by decide, ?_, by decide, ?_⟩
  · rw [hbodies .operatorBodies (by decide)]
    decide +kernel
  · rw [hbodies .propertyBodies (by decide)]
    decide +kernel

end Jsapi

end IdlBind
