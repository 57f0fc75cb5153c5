import BoostOptional.Elementary.Functions

/-!
What each operation asks of `T`, and what it may touch. The table of requirements is read off the
three implementations; the operations are made of elementary actions that keep to it.
-/

namespace BoostOptional
open Effect Prog Memory

/-- An implementation, with the choices of the preprocessor and of the user. -/
inductive Variant where
  | impl (i : Impl)
  | direct (useDefault : Bool)
  deriving DecidableEq, Repr

/-- What an operation may ask of `T`. The last three are about arguments that are not a `T`. -/
inductive Requirement where
  | defaultConstructible | copyConstructible | moveConstructible
  | copyAssignable | moveAssignable | swappable
  | constructible | assignable | applicable
  deriving DecidableEq, Repr

def Cat.constructs : Cat → Requirement
  | .rvalue => .moveConstructible
  | _ => .copyConstructible

def Cat.assigns : Cat → Requirement
  | .rvalue => .moveAssignable
  | _ => .copyAssignable

def constructing (how : Init) (args : List Arg) : Requirement :=
  match how with
  | .inPlaceFactory | .typedInPlaceFactory => .applicable
  | _ =>
    match args with
    | [] => .defaultConstructible
    | [⟨_, cat, .self⟩] => cat.constructs
    | _ => .constructible

def assigning : Arg → Requirement
  | ⟨_, cat, .self⟩ => cat.assigns
  | _ => .assignable

def Call.requirement : Call → Option Requirement
  | .construct how _ args => some (constructing how args)
  | .assign _ v => some (assigning v)
  | .swap .. => some .swappable
  | .destroy _ => none

namespace Op

/-- The optionals whose flag the operation may change. The source of a copy or of a move is not
one of them. -/
def modifies : Op → List ObjId
  | copyAssign this _ | moveAssign this _ | convCopyAssign this _ | convMoveAssign this _ => [.named this]
  | copyCtor o _ | moveCtor o _ | convCopyCtor o _ | convMoveCtor o _ => [.named o]
  | op => op.creates ++ op.objects

/-- The places whose value the operation may change, its temporaries included. -/
def places (op : Op) : List Loc :=
  .scratch :: .contained .temporary :: (op.creates ++ op.objects).map .contained ++ op.sources

end Op

section Tables

variable {α : Type} (E : Element α)

/-- A scalar is copied into a temporary optional and moved from there. -/
def Union.assignRequires (cat : Cat) : List Requirement :=
  if E.isScalar then [cat.bound.constructs, .moveConstructible, .moveAssignable]
  else if E.hasValue.isSome then [cat.constructs, cat.assigns, .constructible, .assignable]
  else [cat.constructs, cat.assigns]

def Union.requires : Op → List Requirement
  | .valueCtor _ _ cat | .condCtor _ _ _ cat => [cat.constructs]
  | .inPlaceCtor _ args | .inPlaceIfCtor _ _ args | .emplace _ args => [constructing .direct args]
  | .copyCtor .. => [.copyConstructible]
  | .moveCtor .. => [.moveConstructible]
  | .convCopyCtor .. | .convMoveCtor .. | .exprCtor .. => [.constructible]
  | .factoryCtor .. | .assignFactory .. => [.applicable]
  | .assignFromT _ _ cat => assignRequires E cat
  | .resetValue .. => assignRequires E .constLvalue
  | .assignFromU .. | .convCopyAssign .. | .convMoveAssign .. => [.constructible, .assignable]
  | .copyAssign .. => [.copyConstructible, .copyAssignable]
  | .moveAssign .. => [.moveConstructible, .moveAssignable]
  | .swap .. => [.moveConstructible, .swappable]
  | .defaultCtor _ | .noneCtor _ | .assignNone _ | .reset _ | .destroy _ => []

def Aligned.requires (useDefault : Bool) : Op → List Requirement
  | .valueCtor _ _ cat | .condCtor _ _ _ cat => [cat.constructs]
  | .inPlaceCtor _ args | .inPlaceIfCtor _ _ args | .emplace _ args => [constructing .direct args]
  | .copyCtor .. => [.copyConstructible]
  | .moveCtor .. => [.moveConstructible]
  | .convCopyCtor .. | .convMoveCtor .. => [.constructible, .moveConstructible]
  | .exprCtor .. => [.constructible]
  | .factoryCtor .. | .assignFactory .. => [.applicable]
  | .assignFromT _ _ cat => [cat.constructs, cat.assigns]
  | .resetValue .. | .copyAssign .. => [.copyConstructible, .copyAssignable]
  | .assignFromU .. => [.constructible, .moveAssignable]
  | .convCopyAssign .. | .convMoveAssign .. => [.constructible, .moveConstructible, .moveAssignable]
  | .moveAssign .. => [.moveConstructible, .moveAssignable]
  | .swap .. =>
    if useDefault then [.defaultConstructible, .swappable]
    else [.moveConstructible, .moveAssignable, .swappable]
  | .defaultCtor _ | .noneCtor _ | .assignNone _ | .reset _ | .destroy _ => []

/-- Direct storage always holds a `T`, and its functions take a `T` by `T const&` only. -/
def Direct.requires (useDefault : Bool) : Op → List Requirement
  | .defaultCtor _ | .noneCtor _ => [.defaultConstructible]
  | .valueCtor .. | .condCtor .. | .copyCtor .. => [.copyConstructible]
  | .inPlaceCtor _ args | .inPlaceIfCtor _ _ args | .emplace _ args =>
    [constructing .direct args, .moveAssignable]
  | .moveCtor .. => [.moveConstructible]
  | .convCopyCtor .. | .convMoveCtor .. => [.defaultConstructible, .constructible, .copyAssignable]
  | .exprCtor .. | .assignFromU .. | .convCopyAssign .. | .convMoveAssign .. =>
    [.constructible, .moveAssignable]
  | .factoryCtor .. | .assignFactory .. => [.applicable]
  | .assignFromT .. | .resetValue .. | .copyAssign .. => [.copyAssignable]
  | .moveAssign .. => [.moveAssignable]
  | .swap .. =>
    if useDefault then [.defaultConstructible, .moveAssignable, .swappable]
    else [.copyAssignable, .swappable]
  | .assignNone _ | .reset _ | .destroy _ => []

namespace Variant

def requires : Variant → Op → List Requirement
  | .impl (.union _) => Union.requires E
  | .impl (.aligned useDefault) => Aligned.requires useDefault
  | .direct useDefault => Direct.requires useDefault

def isDirect : Variant → Bool
  | .impl _ => false
  | .direct _ => true

variable {ε : Type}

def exec (E : Element α) (b : Behaviour α ε) : Variant → Op → Code α ε Unit
  | .impl i => i.exec E b
  | .direct useDefault => Direct.exec b useDefault

def system (E : Element α) (b : Behaviour α ε) (variant : Variant) : System (World α) ε Fault Op where
  exec := variant.exec E b
  legal := Op.Legal

instance decidableLegal (E : Element α) (b : Behaviour α ε) (variant : Variant) (op : Op) (w : World α) :
    Decidable ((variant.system E b).legal op w) :=
  inferInstanceAs (Decidable (op.Legal w))

/-- The elementary actions that `op` may be made of. -/
structure Permits (variant : Variant) (op : Op) (act : Action) : Prop where
  flags : ∀ o ∈ act.flags, o = .temporary ∨ o ∈ op.modifies
  places : ∀ l ∈ act.places, l ∈ op.places
  requires : ∀ c ∈ act.call, ∀ r ∈ c.requirement, r ∈ variant.requires E op
  storage : act.onStorage = true → variant.isDirect = true

end Variant

end Tables

theorem Op.modifies_objects {op : Op} {o : ObjId} (member : o ∈ op.modifies) : o ∈ op.creates ++ op.objects := by
  cases op <;> simp_all [Op.modifies, Op.creates, Op.objects]

theorem Op.object_places {op : Op} {o : ObjId} (member : o ∈ op.creates ++ op.objects) :
    .contained o ∈ op.places :=
  .tail _ (.tail _ (List.mem_append_left _ (List.mem_map_of_mem member)))

theorem Op.source_places {op : Op} {l : Loc} (member : l ∈ op.sources) : l ∈ op.places :=
  .tail _ (.tail _ (List.mem_append_right _ member))

namespace Variant.Permits

variable {α : Type} {E : Element α} {variant : Variant} {op : Op}

theorem administers {o : ObjId} (member : o = .temporary ∨ o ∈ op.modifies) :
    Administers (variant.Permits E op) o := by
  have place : Loc.contained o ∈ op.places := by
    rcases member with rfl | member
    · simp [Op.places]
    · exact Op.object_places (Op.modifies_objects member)
  constructor <;> intros <;> constructor <;>
    simp_all [Action.flags, Action.places, Action.call, Call.requirement, Action.onStorage]

theorem storageAdministers {o : ObjId} (member : o = .temporary ∨ o ∈ op.modifies)
    (direct : variant.isDirect = true) : Direct.Administers (variant.Permits E op) o := by
  have place : Loc.contained o ∈ op.places := by
    rcases member with rfl | member
    · exact .tail _ (.head _)
    · exact Op.object_places (Op.modifies_objects member)
  refine ⟨administers member, ?_, ?_⟩ <;> constructor <;>
    simp_all [Action.flags, Action.places, Action.call]

theorem construct {how : Init} {dst : Loc} {args : List Arg} (place : dst ∈ op.places)
    (passed : ∀ v ∈ args, v.loc ∈ op.places) (required : constructing how args ∈ variant.requires E op) :
    variant.Permits E op (.construct how dst args) := by
  constructor <;> simp_all [Action.flags, Action.places, Action.call, Call.requirement, Action.onStorage]

theorem assign {dst : Loc} {v : Arg} (place : dst ∈ op.places) (passed : v.loc ∈ op.places)
    (required : assigning v ∈ variant.requires E op) : variant.Permits E op (.assign dst v) := by
  constructor <;> simp_all [Action.flags, Action.places, Action.call, Call.requirement, Action.onStorage]

theorem swap {x y : Loc} (placeX : x ∈ op.places) (placeY : y ∈ op.places)
    (required : .swappable ∈ variant.requires E op) : variant.Permits E op (.swap x y) := by
  constructor <;> simp_all [Action.flags, Action.places, Action.call, Call.requirement, Action.onStorage]

theorem destroyScratch : variant.Permits E op (.destroy .scratch) := by
  constructor <;> simp [Action.flags, Action.places, Action.call, Call.requirement, Action.onStorage, Op.places]

theorem assignStorage {o : ObjId} {v : Arg} (direct : variant.isDirect = true) (place : .contained o ∈ op.places) (passed : v.loc ∈ op.places)
    (required : assigning v ∈ variant.requires E op) : variant.Permits E op (.assignStorage o v) := by
  constructor <;> simp_all [Action.flags, Action.places, Action.call, Call.requirement, Action.onStorage]

theorem placeStorage {o : ObjId} {how : Init} {args : List Arg} (direct : variant.isDirect = true)
    (place : .contained o ∈ op.places)
    (passed : ∀ v ∈ args, v.loc ∈ op.places) (required : constructing how args ∈ variant.requires E op) :
    variant.Permits E op (.placeStorage o how args) := by
  constructor <;> simp_all [Action.flags, Action.places, Action.call, Call.requirement, Action.onStorage]

end Variant.Permits

/-- A `U` that is bound to a parameter of `T`'s is converted, if that is in the table. -/
theorem Variant.Permits.converting {α : Type} {E : Element α} {variant : Variant} {op : Op} {v : Arg}
    (passed : v.loc ∈ op.places) (required : v.ty ≠ .self → .constructible ∈ variant.requires E op) :
    Converting (variant.Permits E op) v := by
  refine ⟨fun other => ?_, fun _ => destroyScratch⟩
  refine .construct (.head _) (by simpa using passed) ?_
  obtain ⟨loc, cat, ty⟩ := v
  cases ty with
  | self => exact (other rfl).elim
  | other | inner => exact required nofun

theorem constructing_own (loc : Loc) (cat : Cat) :
    constructing .direct [⟨loc, cat, .self⟩] = cat.constructs := rfl

theorem constructs_bound (cat : Cat) : cat.bound.constructs = cat.constructs := by
  cases cat <;> rfl

section Uses

variable {α ε : Type} (E : Element α) (b : Behaviour α ε)

theorem Variant.Permits.accepts {variant : Variant} {op : Op} {this : ObjId} {v : Arg}
    (place : .contained this ∈ op.places) (passed : v.loc ∈ op.places)
    (constructs : constructing .direct [v] ∈ variant.requires E op)
    (assigns : assigning v ∈ variant.requires E op) :
    Accepts (variant.Permits E op) this v :=
  ⟨.construct place (by simpa using passed) constructs, .assign place passed assigns⟩

theorem Union.assignFromT_permitted {constexprCopy : Bool} {op : Op} {this : Nat} {src : Loc} {cat : Cat}
    (modified : .named this ∈ op.modifies) (passed : src ∈ op.places)
    (table : Union.requires E op = assignRequires E cat) :
    Uses b ((Variant.impl (.union constexprCopy)).Permits E op)
      (assignFromT E b (.named this) ⟨src, cat, .self⟩) := by
  have place := Op.object_places (Op.modifies_objects modified)
  have temporary : Loc.contained .temporary ∈ op.places := .tail _ (.head _)
  have listed : ∀ r, r ∈ assignRequires E cat → r ∈ (Variant.impl (.union constexprCopy)).requires E op :=
    fun r member => by rw [Variant.requires, table]; exact member
  refine assignFromT_uses E (Variant.Permits.administers (.inr modified))
    (Variant.Permits.administers (.inl rfl))
    (fun scalar => ⟨?_, ?_⟩) (fun flat => ?_) fun flat nested => ?_
  · exact .construct temporary (by simpa using passed) (listed _ (by simp [assignRequires, scalar, constructing_own]))
  · exact Variant.Permits.accepts E place temporary (listed _ (by simp [assignRequires, scalar, constructing_own, Cat.constructs]))
      (listed _ (by simp [assignRequires, scalar, assigning, Cat.assigns]))
  · refine Variant.Permits.accepts E place passed (listed _ ?_) (listed _ ?_) <;> cases tested : E.hasValue <;>
      simp [assignRequires, flat, tested, constructing_own, assigning]
  · exact Variant.Permits.accepts E place passed (listed _ (by simp [assignRequires, flat, nested, constructing]))
      (listed _ (by simp [assignRequires, flat, nested, assigning]))

theorem Union.exec_uses (constexprCopy : Bool) (op : Op) :
    Uses b ((Variant.impl (.union constexprCopy)).Permits E op) (Union.exec E b constexprCopy op) := by
  have owns : ∀ o, o = .temporary ∨ o ∈ op.modifies →
      Administers ((Variant.impl (.union constexprCopy)).Permits E op) o :=
    fun _ => Variant.Permits.administers
  have places : ∀ o ∈ op.creates ++ op.objects, .contained o ∈ op.places := fun _ => Op.object_places
  have sources : ∀ l ∈ op.sources, l ∈ op.places := fun _ => Op.source_places
  cases op with
  | defaultCtor o | noneCtor o => exact born_uses (owns _ (.inr (.head _))) false
  | valueCtor o src cat =>
    refine valueCtor_uses (owns _ (.inr (.head _))) fun cat' either => ?_
    refine .construct (places _ (.head _)) (by simpa using sources _ (.head _)) ?_
    rcases either with rfl | rfl
    · exact .head _
    · simp [Variant.requires, Union.requires, constructing_own, constructs_bound]
  | condCtor o cond src cat =>
    refine condStorage_uses E (owns _ (.inr (.head _))) constexprCopy cond ?_
    refine .construct (places _ (.head _)) (by simpa using sources _ (.head _)) ?_
    simp [Variant.requires, Union.requires, constructing_own, constructs_bound]
  | inPlaceCtor o args =>
    refine inPlaceStorage_uses (owns _ (.inr (.head _))) ?_
    exact .construct (places _ (.head _)) (fun v member => sources _ (List.mem_map_of_mem member)) (.head _)
  | inPlaceIfCtor o cond args =>
    refine condStorage_uses E (owns _ (.inr (.head _))) constexprCopy cond ?_
    exact .construct (places _ (.head _)) (fun v member => sources _ (List.mem_map_of_mem member)) (.head _)
  | copyCtor o rhs | moveCtor o rhs | convCopyCtor o rhs | convMoveCtor o rhs =>
    refine optionalCtor_uses E (owns _ (.inr (.head _))) constexprCopy ?_
    refine .construct (places _ (.head _)) ?_ (.head _)
    simpa using places _ (.tail _ (.head _))
  | factoryCtor o typed args =>
    refine factoryCtor_uses E (owns _ (.inr (.head _))) ?_
    refine .construct (places _ (.head _)) (fun v member => sources _ (List.mem_map_of_mem member)) ?_
    cases typed <;> exact .head _
  | exprCtor o src cat =>
    refine inPlaceStorage_uses (owns _ (.inr (.head _))) ?_
    exact .construct (places _ (.head _)) (by simpa using sources _ (.head _)) (.head _)
  | assignNone this | reset this => exact reset_uses E (owns _ (.inr (.head _)))
  | assignFromT this src cat | resetValue this src =>
    exact assignFromT_permitted E b (.head _) (sources _ (.head _)) rfl
  | assignFromU this src cat =>
    refine assignForward_uses (owns _ (.inr (.head _))) ?_
    exact Variant.Permits.accepts E (places _ (.head _)) (sources _ (.head _)) (.head _) (.tail _ (.head _))
  | copyAssign this rhs | moveAssign this rhs | convCopyAssign this rhs | convMoveAssign this rhs =>
    refine assignFrom_uses E (owns _ (.inr (.head _))) isInitialized_uses ?_
    exact Variant.Permits.accepts E (places _ (.head _)) (places _ (.tail _ (.head _))) (.head _) (.tail _ (.head _))
  | assignFactory this typed args =>
    refine assignFactory_uses E (owns _ (.inr (.head _))) ?_
    refine .construct (places _ (.head _)) (fun v member => sources _ (List.mem_map_of_mem member)) ?_
    cases typed <;> exact .head _
  | emplace this args =>
    refine emplace_uses E (owns _ (.inr (.head _))) ?_
    exact .construct (places _ (.head _)) (fun v member => sources _ (List.mem_map_of_mem member)) (.head _)
  | swap x y =>
    refine swap_uses E (owns _ (.inr (.head _))) (owns _ (.inr (.tail _ (.head _)))) ?_ ?_ ?_
    · exact .swap (places _ (.head _)) (places _ (.tail _ (.head _))) (.tail _ (.head _))
    · exact .construct (places _ (.head _)) (by simpa using places _ (.tail _ (.head _))) (.head _)
    · exact .construct (places _ (.tail _ (.head _))) (by simpa using places _ (.head _)) (.head _)
  | destroy o => exact destructor_uses E (owns _ (.inr (.head _)))

theorem Aligned.exec_uses (useDefault : Bool) (op : Op) :
    Uses b ((Variant.impl (.aligned useDefault)).Permits E op) (Aligned.exec b useDefault op) := by
  have owns : ∀ o, o = .temporary ∨ o ∈ op.modifies →
      Administers ((Variant.impl (.aligned useDefault)).Permits E op) o :=
    fun _ => Variant.Permits.administers
  have places : ∀ o ∈ op.creates ++ op.objects, .contained o ∈ op.places := fun _ => Op.object_places
  have sources : ∀ l ∈ op.sources, l ∈ op.places := fun _ => Op.source_places
  have scratch : .scratch ∈ op.places := .head _
  cases op with
  | defaultCtor o | noneCtor o => exact born_uses (owns _ (.inr (.head _))) false
  | valueCtor o src cat =>
    refine baseCtor_uses (owns _ (.inr (.head _))) (construct_uses (owns _ (.inr (.head _))) (.own rfl) ?_)
    refine .construct (places _ (.head _)) (by simpa [Arg.received] using sources _ (.head _)) ?_
    simp [Arg.received, Variant.requires, Aligned.requires, constructing_own, constructs_bound]
  | condCtor o cond src cat =>
    refine baseCtor_uses (owns _ (.inr (.head _))) (madeOf_ite (fun _ => ?_) fun _ => madeOf_pure _)
    refine construct_uses (owns _ (.inr (.head _))) (.own rfl) ?_
    refine .construct (places _ (.head _)) (by simpa [Arg.received] using sources _ (.head _)) ?_
    simp [Arg.received, Variant.requires, Aligned.requires, constructing_own, constructs_bound]
  | inPlaceCtor o args =>
    refine baseCtor_uses (owns _ (.inr (.head _))) (constructed_uses (owns _ (.inr (.head _))) ?_)
    exact .construct (places _ (.head _)) (fun v member => sources _ (List.mem_map_of_mem member)) (.head _)
  | inPlaceIfCtor o cond args =>
    refine baseCtor_uses (owns _ (.inr (.head _))) (madeOf_ite (fun _ => ?_) fun _ => madeOf_pure _)
    refine constructed_uses (owns _ (.inr (.head _))) ?_
    exact .construct (places _ (.head _)) (fun v member => sources _ (List.mem_map_of_mem member)) (.head _)
  | copyCtor o rhs | moveCtor o rhs =>
    refine baseCopyCtor_uses (owns _ (.inr (.head _))) ?_
    exact .construct (places _ (.head _)) (by simpa using places _ (.tail _ (.head _))) (.head _)
  | convCopyCtor o rhs | convMoveCtor o rhs =>
    refine convCtor_uses (owns _ (.inr (.head _))) ?_ ?_
    · exact Variant.Permits.converting (places _ (.tail _ (.head _))) fun _ => .head _
    · exact .construct (places _ (.head _)) (by simpa using scratch) (.tail _ (.head _))
  | factoryCtor o typed args =>
    refine baseCtor_uses (owns _ (.inr (.head _))) (constructed_uses (owns _ (.inr (.head _))) ?_)
    refine .construct (places _ (.head _)) (fun v member => sources _ (List.mem_map_of_mem member)) ?_
    cases typed <;> exact .head _
  | exprCtor o src cat =>
    refine baseCtor_uses (owns _ (.inr (.head _))) (constructed_uses (owns _ (.inr (.head _))) ?_)
    exact .construct (places _ (.head _)) (by simpa using sources _ (.head _)) (.head _)
  | assignNone this | reset this => exact destroy_uses (owns _ (.inr (.head _)))
  | assignFromT this src cat =>
    refine assign_uses (owns _ (.inr (.head _))) (.own rfl) ?_
    refine Variant.Permits.accepts E (places _ (.head _)) (sources _ (.head _)) ?_ ?_ <;> cases cat <;>
      simp [Arg.received, Variant.requires, Aligned.requires, constructing, assigning, Cat.bound,
        Cat.constructs, Cat.assigns]
  | resetValue this src =>
    refine assign_uses (owns _ (.inr (.head _))) (.own rfl) ?_
    exact Variant.Permits.accepts E (places _ (.head _)) (sources _ (.head _)) (.head _) (.tail _ (.head _))
  | assignFromU this src cat =>
    refine assignExpr_uses (owns _ (.inr (.head _))) ?_ ?_ ?_
    · exact Variant.Permits.converting (sources _ (.head _)) fun _ => .head _
    · exact .assign (places _ (.head _)) scratch (.tail _ (.head _))
    · exact .construct (places _ (.head _)) (by simpa using sources _ (.head _)) (.head _)
  | copyAssign this rhs | moveAssign this rhs =>
    refine assignFrom_uses (owns _ (.inr (.head _))) isInitialized_uses (.own rfl) ?_
    exact Variant.Permits.accepts E (places _ (.head _)) (places _ (.tail _ (.head _))) (.head _)
      (.tail _ (.head _))
  | convCopyAssign this rhs | convMoveAssign this rhs =>
    refine assignFrom_uses (owns _ (.inr (.head _))) isInitialized_uses ?_ ?_
    · exact Variant.Permits.converting (places _ (.tail _ (.head _))) fun _ => .head _
    · exact Variant.Permits.accepts E (places _ (.head _)) scratch (.tail _ (.head _))
        (.tail _ (.tail _ (.head _)))
  | assignFactory this typed args =>
    refine assignFactory_uses (owns _ (.inr (.head _))) ?_
    refine .construct (places _ (.head _)) (fun v member => sources _ (List.mem_map_of_mem member)) ?_
    cases typed <;> exact .head _
  | emplace this args =>
    refine emplace_uses (owns _ (.inr (.head _))) ?_
    exact .construct (places _ (.head _)) (fun v member => sources _ (List.mem_map_of_mem member)) (.head _)
  | swap x y =>
    have placeX : Loc.contained (.named x) ∈ (Op.swap x y).places := places _ (.head _)
    have placeY : Loc.contained (.named y) ∈ (Op.swap x y).places := places _ (.tail _ (.head _))
    refine swap_uses useDefault (owns _ (.inr (.head _))) (owns _ (.inr (.tail _ (.head _)))) ?_ ?_ ?_
    · refine .swap placeX placeY ?_
      cases useDefault <;> simp [Variant.requires, Aligned.requires]
    · rintro rfl
      exact ⟨.construct placeX (List.forall_mem_nil _) (.head _),
        .construct placeY (List.forall_mem_nil _) (.head _)⟩
    · rintro rfl
      exact ⟨Variant.Permits.accepts E placeX placeY (.head _) (.tail _ (.head _)),
        Variant.Permits.accepts E placeY placeX (.head _) (.tail _ (.head _))⟩
  | destroy o => exact baseDestructor_uses (owns _ (.inr (.head _)))

theorem Direct.exec_uses (useDefault : Bool) (op : Op) :
    Uses b ((Variant.direct useDefault).Permits E op) (Direct.exec b useDefault op) := by
  have owns : ∀ o, o = .temporary ∨ o ∈ op.modifies →
      Direct.Administers ((Variant.direct useDefault).Permits E op) o :=
    fun _ member => Variant.Permits.storageAdministers member rfl
  have places : ∀ o ∈ op.creates ++ op.objects, .contained o ∈ op.places := fun _ => Op.object_places
  have sources : ∀ l ∈ op.sources, l ∈ op.places := fun _ => Op.source_places
  have scratch : .scratch ∈ op.places := .head _
  cases op with
  | defaultCtor o | noneCtor o =>
    exact memberCtor_uses (owns _ (.inr (.head _))) (.placeStorage rfl (places _ (.head _)) (List.forall_mem_nil _) (.head _))
  | valueCtor o src cat | condCtor o cond src cat =>
    refine memberCtor_uses (owns _ (.inr (.head _))) ?_
    exact .placeStorage rfl (places _ (.head _)) (by simpa using sources _ (.head _)) (.head _)
  | inPlaceCtor o args =>
    refine bodyCtor_uses (owns _ (.inr (.head _))) ?_
    refine constructInPlace_uses (owns _ (.inr (.head _))) ?_ .destroyScratch ?_
    · exact .construct scratch (fun v member => sources _ (List.mem_map_of_mem member)) (.head _)
    · exact .assignStorage rfl (places _ (.head _)) scratch (.tail _ (.head _))
  | inPlaceIfCtor o cond args =>
    refine bodyCtor_uses (owns _ (.inr (.head _))) (madeOf_ite (fun _ => ?_) fun _ => madeOf_pure _)
    refine constructInPlace_uses (owns _ (.inr (.head _))) ?_ .destroyScratch ?_
    · exact .construct scratch (fun v member => sources _ (List.mem_map_of_mem member)) (.head _)
    · exact .assignStorage rfl (places _ (.head _)) scratch (.tail _ (.head _))
  | copyCtor o rhs | moveCtor o rhs =>
    refine memberwiseCtor_uses (owns _ (.inr (.head _))) ?_
    exact .placeStorage rfl (places _ (.head _)) (by simpa using places _ (.tail _ (.head _))) (.head _)
  | convCopyCtor o rhs | convMoveCtor o rhs =>
    refine convCtor_uses (owns _ (.inr (.head _))) ?_ ?_ ?_
    · exact .placeStorage rfl (places _ (.head _)) (List.forall_mem_nil _) (.head _)
    · exact Variant.Permits.converting (places _ (.tail _ (.head _))) fun _ => .tail _ (.head _)
    · exact .assignStorage rfl (places _ (.head _)) scratch (.tail _ (.tail _ (.head _)))
  | factoryCtor o typed args =>
    refine bodyCtor_uses (owns _ (.inr (.head _))) (constructFactory_uses (owns _ (.inr (.head _))) ?_)
    refine .placeStorage rfl (places _ (.head _)) (fun v member => sources _ (List.mem_map_of_mem member)) ?_
    cases typed <;> exact .head _
  | exprCtor o src cat =>
    refine bodyCtor_uses (owns _ (.inr (.head _))) ?_
    refine constructInPlace_uses (owns _ (.inr (.head _))) ?_ .destroyScratch ?_
    · exact .construct scratch (by simpa using sources _ (.head _)) (.head _)
    · exact .assignStorage rfl (places _ (.head _)) scratch (.tail _ (.head _))
  | assignNone this | reset this => exact setInit_uses (owns _ (.inr (.head _))).toAdministers false
  | assignFromT this src cat =>
    refine construct_uses (v := ⟨src, cat, .self⟩) (owns _ (.inr (.head _))) (.own rfl) ?_
    exact .assignStorage rfl (places _ (.head _)) (sources _ (.head _)) (.head _)
  | resetValue this src =>
    refine construct_uses (v := ⟨src, .constLvalue, .self⟩) (owns _ (.inr (.head _))) (.own rfl) ?_
    exact .assignStorage rfl (places _ (.head _)) (sources _ (.head _)) (.head _)
  | assignFromU this src cat =>
    refine constructInPlace_uses (owns _ (.inr (.head _))) ?_ .destroyScratch ?_
    · exact .construct scratch (by simpa using sources _ (.head _)) (.head _)
    · exact .assignStorage rfl (places _ (.head _)) scratch (.tail _ (.head _))
  | copyAssign this rhs | moveAssign this rhs =>
    refine memberwiseAssign_uses (owns _ (.inr (.head _))) ?_
    exact .assignStorage rfl (places _ (.head _)) (places _ (.tail _ (.head _))) (.head _)
  | convCopyAssign this rhs | convMoveAssign this rhs =>
    refine assignFrom_uses (owns _ (.inr (.head _))) ?_ .destroyScratch ?_
    · exact .construct scratch (by simpa using places _ (.tail _ (.head _))) (.head _)
    · exact .assignStorage rfl (places _ (.head _)) scratch (.tail _ (.head _))
  | assignFactory this typed args =>
    refine constructFactory_uses (owns _ (.inr (.head _))) ?_
    refine .placeStorage rfl (places _ (.head _)) (fun v member => sources _ (List.mem_map_of_mem member)) ?_
    cases typed <;> exact .head _
  | emplace this args =>
    refine constructInPlace_uses (owns _ (.inr (.head _))) ?_ .destroyScratch ?_
    · exact .construct scratch (fun v member => sources _ (List.mem_map_of_mem member)) (.head _)
    · exact .assignStorage rfl (places _ (.head _)) scratch (.tail _ (.head _))
  | swap x y =>
    have placeX : Loc.contained (.named x) ∈ (Op.swap x y).places := places _ (.head _)
    have placeY : Loc.contained (.named y) ∈ (Op.swap x y).places := places _ (.tail _ (.head _))
    refine swap_uses useDefault (owns _ (.inr (.head _))) (owns _ (.inr (.tail _ (.head _)))) ?_
      .destroyScratch ?_ ?_
    · refine .swap placeX placeY ?_
      cases useDefault <;> simp [Variant.requires, Direct.requires]
    · rintro rfl
      exact ⟨.construct scratch (List.forall_mem_nil _) (.head _), .assignStorage rfl placeX scratch (.tail _ (.head _)),
        .assignStorage rfl placeY scratch (.tail _ (.head _))⟩
    · rintro rfl
      exact ⟨.assignStorage rfl placeX placeY (.head _), .assignStorage rfl placeY placeX (.head _)⟩
  | destroy o => exact releaseStorage_uses (owns _ (.inr (.head _)))

/-- Every operation of every implementation is made of the elementary actions that it permits. -/
theorem Variant.exec_uses (variant : Variant) (op : Op) :
    Uses b (variant.Permits E op) (variant.exec E b op) := by
  cases variant with
  | impl i =>
    cases i with
    | union constexprCopy => exact Union.exec_uses E b constexprCopy op
    | aligned useDefault => exact Aligned.exec_uses E b useDefault op
  | direct useDefault => exact Direct.exec_uses E b useDefault op

end Uses

end BoostOptional
