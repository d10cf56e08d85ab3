import ForeignCall.Proofs.Encoding.Recognition
import ForeignCall.Proofs.Encoding.WellSpelled

/-! # Types that were read

A well-spelled type is one whose words can be read (`CType.isSpelled`: names, numbers and default
ownership) and whose neighbours keep apart (`CType.isSeparated`). The readers give only types of the
first kind (`CType.isSpelled_of_ofEncoding`), whatever the text and whatever parts of it were
malformed, because each word is cut off where a character ends it. The second they do not ensure.
-/

namespace ForeignCall

namespace CType

mutual

/-- Whether the names and numbers in a type are words that are read as they are written. -/
def isSpelled : CType → Bool
  | object className protocols =>
    className.all (isNameWithout ['"', '<']) && protocols.all (isNameWithout ['"', '<', '>'])
  | block (some ⟨⟨_, type⟩, arguments⟩) => isSpelled type && areParametersSpelled arguments
  | wrapped _ inner => isSpelled inner
  | bitfield width => width < Quantity.bitfieldWidth.limit
  | array count element => count < Quantity.arrayLength.limit && isSpelled element
  | forward shape name => name.all shape.isName
  | aggregate shape name members => name.all shape.isName && areMembersSpelled members
  | _ => true

/-- Whether members are spelled and have their types' default ownership. -/
def areMembersSpelled : List Member → Bool
  | [] => true
  | ⟨name, type, retention⟩ :: members =>
    name.all (isNameWithout ['"']) && retention = type.defaultRetention && isSpelled type
      && areMembersSpelled members

def areParametersSpelled : List Parameter → Bool
  | [] => true
  | ⟨_, type⟩ :: parameters => isSpelled type && areParametersSpelled parameters

end

mutual

/-- Whether neighbours in the encoding of a type spell no third thing: in a block, the type of a
parameter is told from its attributes, and there as among members without names no `?` follows an
`@`. -/
def isSeparated : CType → Bool
  | block (some ⟨⟨attributes, type⟩, arguments⟩) =>
    isSeparated type && areParametersSeparated arguments
      && (⟨attributes, type⟩ :: arguments).all Parameter.isDistinct
      && keepsObjects ((⟨attributes, type⟩ :: arguments).map Parameter.encode)
  | wrapped _ inner => isSeparated inner
  | array _ element => isSeparated element
  | aggregate _ _ members =>
    areMembersSeparated members
      && (members.any (·.name.isSome) || keepsObjects (members.map (·.type.encode)))
  | _ => true

def areMembersSeparated : List Member → Bool
  | [] => true
  | ⟨_, type, _⟩ :: members => isSeparated type && areMembersSeparated members

def areParametersSeparated : List Parameter → Bool
  | [] => true
  | ⟨_, type⟩ :: parameters => isSeparated type && areParametersSeparated parameters

end

mutual

/-- Well spelled are the words together with what stands between them. -/
theorem isWellSpelled_eq : (type : CType) →
    type.isWellSpelled = (type.isSpelled && type.isSeparated)
  | unknown | void | scalar _ | classRef | block none | object _ _ | bitfield _ | forward _ _ => by
    simp [isWellSpelled, isSpelled, isSeparated]
  | block (some ⟨⟨_, type⟩, arguments⟩) => by
    simp only [isWellSpelled, isSpelled, isSeparated, isWellSpelled_eq type,
      areParametersWellSpelled_eq arguments]
    ac_rfl
  | wrapped _ inner => by
    simp only [isWellSpelled, isSpelled, isSeparated, isWellSpelled_eq inner]
  | array _ element => by
    simp only [isWellSpelled, isSpelled, isSeparated, isWellSpelled_eq element]
    ac_rfl
  | aggregate _ _ members => by
    simp only [isWellSpelled, isSpelled, isSeparated, areMembersWellSpelled_eq members]
    ac_rfl

theorem areMembersWellSpelled_eq : (members : List Member) →
    areMembersWellSpelled members = (areMembersSpelled members && areMembersSeparated members)
  | [] => rfl
  | ⟨_, type, _⟩ :: members => by
    simp only [areMembersWellSpelled, areMembersSpelled, areMembersSeparated, isWellSpelled_eq type,
      areMembersWellSpelled_eq members]
    ac_rfl

theorem areParametersWellSpelled_eq : (parameters : List Parameter) →
    areParametersWellSpelled parameters =
      (areParametersSpelled parameters && areParametersSeparated parameters)
  | [] => rfl
  | ⟨_, type⟩ :: parameters => by
    simp only [areParametersWellSpelled, areParametersSpelled, areParametersSeparated,
      isWellSpelled_eq type, areParametersWellSpelled_eq parameters]
    ac_rfl

end

theorem areNames_of_areMembersSpelled {members : List Member}
    (spelled : areMembersSpelled members = true) :
    ∀ member ∈ members, member.name.all (isNameWithout ['"']) = true := by
  induction members with
  | nil => simp
  | cons member members ih =>
    obtain ⟨name, type, retention⟩ := member
    simp only [areMembersSpelled, Bool.and_eq_true] at spelled
    exact List.forall_mem_cons.mpr ⟨spelled.1.1.1, ih spelled.2⟩

theorem areParametersSpelled_cons {parameter : Parameter} {parameters : List Parameter} :
    areParametersSpelled (parameter :: parameters) = true ↔
      parameter.type.isSpelled = true ∧ areParametersSpelled parameters = true := by
  cases parameter
  rw [areParametersSpelled, Bool.and_eq_true]

end CType

/-! ## Words that were read -/

variable {text start : List Char}

theorem isNameWithout_ofList {forbidden name : List Char} (nonempty : name ≠ [])
    (without : ∀ c ∈ name, c ∉ forbidden) : isNameWithout forbidden (String.ofList name) = true := by
  rw [isNameWithout_iff]
  simpa using ⟨nonempty, without⟩

theorem readQuantity_lt {quantity : Quantity} {number : Nat}
    (read : (readQuantity quantity start text).result = .ok number) : number < quantity.limit := by
  unfold readQuantity at read
  dsimp only at read
  split at read
  next => contradiction
  next =>
    split at read
    next less =>
      cases read
      exact less
    next => contradiction

/-- A character of a word belongs to its class. -/
theorem of_mem_takeWhile {p : Char → Bool} {c : Char} (present : c ∈ text.takeWhile p) :
    p c = true := List.all_eq_true.mp List.all_takeWhile c present

theorem unquoted_of_readQuoted {name : List Char}
    (read : (readQuoted start text).result = .ok name) : '"' ∉ name := by
  unfold readQuoted at read
  split at read
  next =>
    cases read
    intro present
    simpa using of_mem_takeWhile present
  next => contradiction

theorem isName_memberName {name : List Char} (unquoted : '"' ∉ name) :
    (memberName name).all (isNameWithout ['"']) = true := by
  unfold memberName
  split
  next => rfl
  next nonempty =>
    apply isNameWithout_ofList (by simpa using nonempty)
    intro c present forbidden
    obtain rfl := List.mem_singleton.mp forbidden
    exact unquoted present

theorem isName_readAggregateName {shape : Shape} {name : String} {isComplete : Bool}
    (read : (readAggregateName shape start text).result = .ok (name, isComplete)) :
    (CType.normalizeName (some name)).all shape.isName = true := by
  unfold readAggregateName at read
  dsimp only at read
  split at read
  next => contradiction
  next =>
    cases read
    unfold CType.normalizeName
    dsimp only
    split
    next => rfl
    next named =>
      rw [Option.all_some, Shape.isName, Bool.and_eq_true]
      constructor
      · apply isNameWithout_ofList
        · intro empty
          exact named (.inl (by rw [empty]))
        · intro c present forbidden
          have inner := of_mem_takeWhile present
          simp only [List.mem_cons, List.not_mem_nil, or_false] at forbidden
          rcases forbidden with rfl | rfl <;> simp at inner
      · simpa using fun same => named (.inr same)

theorem mem_of_mem_foldr_prependToRuns {run : List Char} {c : Char}
    (isRun : run ∈ text.foldr prependToRuns [[]]) (present : c ∈ run) :
    c ∈ text ∧ ¬(c = '<' ∨ c = '>') := by
  induction text generalizing run with
  | nil =>
    obtain rfl := List.mem_singleton.mp isRun
    contradiction
  | cons first text ih =>
    rw [List.foldr_cons, prependToRuns.eq_def] at isRun
    split at isRun
    next =>
      rcases List.mem_cons.mp isRun with rfl | isRun
      · contradiction
      · exact ⟨List.mem_cons_of_mem _ (ih isRun present).1, (ih isRun present).2⟩
    next other =>
      split at isRun
      next word words same =>
        rcases List.mem_cons.mp isRun with rfl | isRun
        · rcases List.mem_cons.mp present with rfl | present
          · exact ⟨List.mem_cons_self .., other⟩
          · obtain ⟨within, outer⟩ := ih (same ▸ List.mem_cons_self ..) present
            exact ⟨List.mem_cons_of_mem _ within, outer⟩
        · obtain ⟨within, outer⟩ := ih (same ▸ List.mem_cons_of_mem _ isRun) present
          exact ⟨List.mem_cons_of_mem _ within, outer⟩
      next same =>
        obtain rfl := List.mem_singleton.mp isRun
        obtain rfl := List.mem_singleton.mp present
        exact ⟨List.mem_cons_self .., other⟩

/-- A restriction without quotes names a class and protocols that can be written again. -/
theorem isSpelled_objectOfRestriction (unquoted : '"' ∉ text) :
    (objectOfRestriction text).isSpelled = true := by
  rw [objectOfRestriction, CType.isSpelled, Bool.and_eq_true]
  constructor
  · split
    next => rfl
    next nonempty =>
      apply isNameWithout_ofList (by simpa using nonempty)
      intro c present forbidden
      have within := (List.takeWhile_sublist _).subset present
      have inner := of_mem_takeWhile present
      simp only [List.mem_cons, List.not_mem_nil, or_false] at forbidden
      rcases forbidden with rfl | rfl
      · exact unquoted within
      · simp at inner
  · rw [List.all_eq_true]
    intro protocol isProtocol
    obtain ⟨run, isRun, rfl⟩ := List.mem_map.mp isProtocol
    obtain ⟨isRun, nonempty⟩ := List.mem_filter.mp isRun
    apply isNameWithout_ofList (by simpa using nonempty)
    intro c present forbidden
    obtain ⟨within, outer⟩ := mem_of_mem_foldr_prependToRuns isRun present
    simp only [List.mem_cons, List.not_mem_nil, or_false] at forbidden
    rcases forbidden with rfl | forbidden
    · exact unquoted ((List.dropWhile_sublist _).subset within)
    · exact outer forbidden

/-! ## Types that were read -/

/-- With a depth, every reader gives spelled types. -/
structure SpellsTo (depth : Nat) : Prop where
  type : ∀ {named text type}, (readType depth named text).result = .ok type → type.isSpelled = true
  members : ∀ {shape named unclosed text members},
    (readMembers depth shape named unclosed text).result = .ok members →
      CType.areMembersSpelled members = true
  parameters : ∀ {inBlock text parameters},
    (readParameters depth inBlock text).result = .ok parameters →
      CType.areParametersSpelled parameters = true

namespace SpellsTo

variable {depth : Nat} {named : Bool}

/-- A type inside another is spelled too: where reading fails, it is unknown. -/
theorem orUnknown (spells : SpellsTo depth) :
    (readType depth named text).orUnknown.isSpelled = true := by
  unfold Reading.orUnknown
  split
  next type read => exact spells.type read
  next => rfl

theorem ofRecognized (spells : SpellsTo depth) {code : Char} {type : CType}
    (recognizes : Recognizes depth named code text type) : type.isSpelled = true := by
  cases recognizes with
  | void | unknown | classRef | block | object | scalar => rfl
  | @signature _ result _ inside =>
    have spelled := spells.parameters inside
    cases result
    simpa only [CType.areParametersSpelled, CType.isSpelled] using spelled
  | restricted quoted => exact isSpelled_objectOfRestriction (unquoted_of_readQuoted quoted)
  | bitfield digits =>
    rw [CType.isSpelled, decide_eq_true_eq]
    exact readQuantity_lt digits
  | array digits =>
    rw [CType.isSpelled, Bool.and_eq_true, decide_eq_true_eq]
    exact ⟨readQuantity_lt digits, spells.orUnknown⟩
  | forward isName =>
    rw [CType.isSpelled]
    exact isName_readAggregateName isName
  | aggregate isName inside =>
    rw [CType.isSpelled, Bool.and_eq_true]
    exact ⟨isName_readAggregateName isName, spells.members inside⟩
  | wrapped =>
    rw [CType.isSpelled]
    exact spells.orUnknown

/-- A member read in front of others. -/
theorem areMembersSpelled_cons {name : Option String} {type : CType} {members : List Member}
    (isName : name.all (isNameWithout ['"']) = true) (spelled : type.isSpelled = true)
    (others : CType.areMembersSpelled members = true) :
    CType.areMembersSpelled (.ofType name type :: members) = true := by
  simp [Member.ofType, CType.areMembersSpelled, isName, spelled, others]

theorem members_succ (spells : SpellsTo depth) {shape : Shape} {unclosed : Failure}
    {members : List Member}
    (read : (readMembers (depth + 1) shape named unclosed text).result = .ok members) :
    CType.areMembersSpelled members = true := by
  cases text with
  | nil => contradiction
  | cons next rest =>
    cases memberStart_cases shape next with
    | closing =>
      rw [readMembers_closing] at read
      cases read
      rfl
    | quote =>
      rw [readMembers_quote] at read
      obtain ⟨name, quoted, found⟩ := Reading.andThen_eq_ok.mp read
      obtain ⟨others, following, rfl⟩ := Reading.map_eq_ok.mp found
      exact areMembersSpelled_cons (isName_memberName (unquoted_of_readQuoted quoted))
        spells.orUnknown (spells.members following)
    | stray other closes =>
      rw [readMembers_stray other closes] at read
      obtain ⟨others, following, rfl⟩ := Reading.map_eq_ok.mp read
      exact areMembersSpelled_cons rfl rfl (spells.members following)
    | type unquoted opens =>
      rw [readMembers_type unquoted opens] at read
      obtain ⟨others, following, rfl⟩ := Reading.map_eq_ok.mp read
      exact areMembersSpelled_cons rfl spells.orUnknown (spells.members following)

theorem parameters_succ (spells : SpellsTo depth) {inBlock : Bool} {parameters : List Parameter}
    (read : (readParameters (depth + 1) inBlock text).result = .ok parameters) :
    CType.areParametersSpelled parameters = true := by
  cases parameterText_cases inBlock text with
  | blank blank =>
    rw [readParameters_blank blank] at read
    cases inBlock <;> cases read
    rfl
  | closing isBlock first =>
    subst isBlock
    rw [readParameters_end first] at read
    cases read
    rfl
  | untyped first inside attributes =>
    rw [readParameters_untyped first inside attributes] at read
    contradiction
  | @typed _ code _ _ _ first inside attributes =>
    cases closes : isCloser code with
    | true =>
      rw [readParameters_stray first inside attributes closes] at read
      obtain ⟨others, following, rfl⟩ := Reading.map_eq_ok.mp read
      simpa only [CType.areParametersSpelled, CType.isSpelled, Bool.true_and] using
        spells.parameters following
    | false =>
      rw [readParameters_type first inside attributes closes] at read
      obtain ⟨others, following, rfl⟩ := Reading.map_eq_ok.mp read
      rw [CType.areParametersSpelled, Bool.and_eq_true]
      exact ⟨spells.orUnknown, spells.parameters following⟩

end SpellsTo

theorem spellsTo (depth : Nat) : SpellsTo depth := by
  induction depth with
  | zero =>
    refine ⟨fun read => ?_, fun read => ?_, fun read => ?_⟩
    · obtain ⟨_, _, _, _, same, _⟩ := recognizes_of_readType read
      contradiction
    · unfold readMembers at read
      split at read <;> contradiction
    · unfold readParameters at read
      split at read
      next =>
        split at read
        next => contradiction
        next => cases read; rfl
      next => contradiction
      next same _ => contradiction
  | succ depth ih =>
    refine ⟨fun read => ?_, ih.members_succ, ih.parameters_succ⟩
    obtain ⟨code, rest, previous, rfl, same, recognizes⟩ := recognizes_of_readType read
    cases same
    exact ih.ofRecognized recognizes

/-- Every type that a text is an encoding of is spelled. -/
theorem CType.isSpelled_of_ofEncoding {encoding : String} {type : CType}
    (read : CType.ofEncoding encoding = .ok type) : type.isSpelled = true := by
  rw [ofEncoding_eq_ok] at read
  apply (spellsTo (encoding.toList.length + 1)).type
  rw [read]
  rfl

end ForeignCall
