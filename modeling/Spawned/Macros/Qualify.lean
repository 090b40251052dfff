import Mathlib.Tactic.SplitIfs

/-!
# Types of a protocol, qualified for the generated module

`#[protocol]` generates structs named after the methods in a module of its own, which opens its parent with
`use super::*`. A struct of the same name would shadow a type of the parent there, so `qualify_type_with_super` writes
`super::` in front of the names in the types of the methods.

* `SynType`, `Path`, … : the syntax trees of `syn`. What the function copies without a look is kept as tokens;
* `qualifyTypeWithSuper`, `qualifyPathWithSuper` : the two functions. What the second does to a bound, the first does to
  the arguments of a path, save for those in parentheses;
* `SynType.prefixed` : where `super::` is to stand; `SynType.hasUser` : some name of the user's stands without it;
* `SynType.reached` : all names of the user's are where the functions go;
* `qualified_everywhere_iff` : then, and only then, is every one of them qualified.
-/

namespace Spawned.Macros

/-! ## Syntax -/

mutual

/-- `syn::Type`. -/
inductive SynType
  | path (path : Path)
  /-- `<ty as Trait>::Name`, with the number of segments before the `>` -/
  | qself (ty : SynType) (position : Nat) (path : Path)
  | reference (tokens : String) (elem : SynType)
  | ptr (tokens : String) (elem : SynType)
  | tuple (elems : List SynType)
  | array (elem : SynType) (len : String)
  | slice (elem : SynType)
  | paren (elem : SynType)
  /-- in invisible delimiters, out of a macro -/
  | group (elem : SynType)
  | traitObject (dyn : Bool) (bounds : List TypeParamBound)
  | implTrait (bounds : List TypeParamBound)
  | bareFn (tokens : String) (inputs : List SynType) (output : ReturnType)
  /-- `!`, `_`, a macro or tokens `syn` does not know -/
  | other (tokens : String)

inductive Path
  | mk (leadingColon : Bool) (segments : List PathSegment)

inductive PathSegment
  | mk (ident : String) (arguments : PathArguments)

inductive PathArguments
  | none
  | angleBracketed (args : List GenericArgument)
  | parenthesized (inputs : List SynType) (output : ReturnType)

inductive GenericArgument
  | type (ty : SynType)
  /-- `Name<generics> = ty` -/
  | assocType (name : String) (generics : List GenericArgument) (ty : SynType)
  /-- `Name<generics>: bounds` -/
  | constraint (name : String) (generics : List GenericArgument) (bounds : List TypeParamBound)
  /-- a lifetime, a constant or an associated constant -/
  | other (tokens : String)

inductive TypeParamBound
  | trait (tokens : String) (path : Path)
  /-- a lifetime, a `use<..>` or tokens `syn` does not know -/
  | other (tokens : String)

inductive ReturnType
  | default
  | type (ty : SynType)

end

def PathSegment.ident : PathSegment → String
  | .mk ident _ => ident

namespace Path

def leadingColon : Path → Bool
  | mk leadingColon _ => leadingColon

def segments : Path → List PathSegment
  | mk _ segments => segments

/-- The first segment. -/
def first (path : Path) : Option String := path.segments.head?.map PathSegment.ident

end Path

/-! ## The functions -/

/-- Names that are there without an import. -/
def isPreludeOrPrimitive (name : String) : Bool :=
  ["bool", "char", "str",
    "i8", "i16", "i32", "i64", "i128", "isize",
    "u8", "u16", "u32", "u64", "u128", "usize",
    "f32", "f64",
    "Box", "String", "Vec",
    "Option", "Some", "None",
    "Result", "Ok", "Err",
    "ToString", "ToOwned"].contains name

/-- The first segments of paths that are left as they are. -/
def isRoot (name : String) : Bool := ["crate", "super", "self", "std", "core", "alloc"].contains name

mutual

/-- `qualify_type_with_super`. -/
def qualifyTypeWithSuper : SynType → SynType
  | .qself ty position path => .qself ty position path
  | .path (.mk leadingColon segments) =>
    if leadingColon then .path (.mk leadingColon segments)
    else if (Path.mk leadingColon segments).first.any isRoot then .path (.mk leadingColon segments)
    else if (Path.mk leadingColon segments).first.any isPreludeOrPrimitive then
      .path (.mk false (qualifySegments segments))
    else .path (.mk false (.mk "super" .none :: qualifySegments segments))
  | .reference tokens elem => .reference tokens (qualifyTypeWithSuper elem)
  | .tuple elems => .tuple (qualifyEach elems)
  | .array elem len => .array (qualifyTypeWithSuper elem) len
  | .slice elem => .slice (qualifyTypeWithSuper elem)
  | .paren elem => .paren (qualifyTypeWithSuper elem)
  | .traitObject dyn bounds => .traitObject dyn (qualifyBounds bounds)
  | .implTrait bounds => .implTrait (qualifyBounds bounds)
  | .bareFn tokens inputs output => .bareFn tokens (qualifyEach inputs) (qualifyReturn output)
  -- the catch-all
  | .ptr tokens elem => .ptr tokens elem
  | .group elem => .group elem
  | .other tokens => .other tokens

def qualifyEach : List SynType → List SynType
  | [] => []
  | ty :: tys => qualifyTypeWithSuper ty :: qualifyEach tys

def qualifyReturn : ReturnType → ReturnType
  | .default => .default
  | .type ty => .type (qualifyTypeWithSuper ty)

/-- The segments of a type's path, with the types among their arguments in angle brackets. -/
def qualifySegments : List PathSegment → List PathSegment
  | [] => []
  | .mk ident (.angleBracketed args) :: segments =>
    .mk ident (.angleBracketed (qualifyArgs args)) :: qualifySegments segments
  | .mk ident .none :: segments => .mk ident .none :: qualifySegments segments
  | .mk ident (.parenthesized inputs output) :: segments =>
    .mk ident (.parenthesized inputs output) :: qualifySegments segments

def qualifyArgs : List GenericArgument → List GenericArgument
  | [] => []
  | .type ty :: args => .type (qualifyTypeWithSuper ty) :: qualifyArgs args
  | .assocType name generics ty :: args => .assocType name generics ty :: qualifyArgs args
  | .constraint name generics bounds :: args => .constraint name generics bounds :: qualifyArgs args
  | .other tokens :: args => .other tokens :: qualifyArgs args

def qualifyBounds : List TypeParamBound → List TypeParamBound
  | [] => []
  | .trait tokens path :: bounds => .trait tokens (qualifyPathWithSuper path) :: qualifyBounds bounds
  | .other tokens :: bounds => .other tokens :: qualifyBounds bounds

/-- `qualify_path_with_super`. -/
def qualifyPathWithSuper : Path → Path
  | .mk leadingColon segments => .mk leadingColon (qualifyBoundSegments segments)

/-- Its loop. -/
def qualifyBoundSegments : List PathSegment → List PathSegment
  | [] => []
  | .mk ident (.angleBracketed args) :: segments =>
    .mk ident (.angleBracketed (qualifyArgs args)) :: qualifyBoundSegments segments
  | .mk ident (.parenthesized inputs output) :: segments =>
    .mk ident (.parenthesized (qualifyEach inputs) (qualifyReturn output)) :: qualifyBoundSegments segments
  | .mk ident .none :: segments => .mk ident .none :: qualifyBoundSegments segments

end

/-! ## Where `super::` is to stand -/

namespace Path

/-- The path is absolute, or begins at one of the roots. -/
def isQualified (path : Path) : Bool := path.leadingColon || path.first.any isRoot

/-- The path begins with a name of the user's. -/
def isUser (path : Path) : Bool := !path.isQualified && !path.first.any isPreludeOrPrimitive

/-- `super::` in front of a path that is a user's. -/
def addSuper (path : Path) : Path :=
  if path.isUser then mk path.leadingColon (.mk "super" .none :: path.segments) else path

end Path

mutual

/-- The type with `super::` in front of every path that is a user's, at any depth. -/
def SynType.prefixed : SynType → SynType
  | .path path => .path path.prefixed
  | .qself ty position (.mk leadingColon segments) =>
    .qself ty.prefixed position (.mk leadingColon (prefixedSegments segments))
  | .reference tokens elem => .reference tokens elem.prefixed
  | .ptr tokens elem => .ptr tokens elem.prefixed
  | .tuple elems => .tuple (prefixedTypes elems)
  | .array elem len => .array elem.prefixed len
  | .slice elem => .slice elem.prefixed
  | .paren elem => .paren elem.prefixed
  | .group elem => .group elem.prefixed
  | .traitObject dyn bounds => .traitObject dyn (prefixedBounds bounds)
  | .implTrait bounds => .implTrait (prefixedBounds bounds)
  | .bareFn tokens inputs output => .bareFn tokens (prefixedTypes inputs) output.prefixed
  | .other tokens => .other tokens

def prefixedTypes : List SynType → List SynType
  | [] => []
  | ty :: tys => ty.prefixed :: prefixedTypes tys

def ReturnType.prefixed : ReturnType → ReturnType
  | .default => .default
  | .type ty => .type ty.prefixed

def Path.prefixed : Path → Path
  | .mk leadingColon segments => (Path.mk leadingColon (prefixedSegments segments)).addSuper

def prefixedSegments : List PathSegment → List PathSegment
  | [] => []
  | .mk ident arguments :: segments => .mk ident arguments.prefixed :: prefixedSegments segments

def PathArguments.prefixed : PathArguments → PathArguments
  | .none => .none
  | .angleBracketed args => .angleBracketed (prefixedArgs args)
  | .parenthesized inputs output => .parenthesized (prefixedTypes inputs) output.prefixed

def prefixedArgs : List GenericArgument → List GenericArgument
  | [] => []
  | .type ty :: args => .type ty.prefixed :: prefixedArgs args
  | .assocType name generics ty :: args => .assocType name (prefixedArgs generics) ty.prefixed :: prefixedArgs args
  | .constraint name generics bounds :: args =>
    .constraint name (prefixedArgs generics) (prefixedBounds bounds) :: prefixedArgs args
  | .other tokens :: args => .other tokens :: prefixedArgs args

def prefixedBounds : List TypeParamBound → List TypeParamBound
  | [] => []
  | .trait tokens path :: bounds => .trait tokens path.prefixed :: prefixedBounds bounds
  | .other tokens :: bounds => .other tokens :: prefixedBounds bounds

end

mutual

/-- Some path in the type, at any depth, is a user's: a generated struct of its first name captures it. -/
def SynType.hasUser : SynType → Bool
  | .path path => path.hasUser
  | .qself ty _ (.mk _ segments) => ty.hasUser || segmentsHaveUser segments
  | .reference _ elem | .ptr _ elem | .array elem _ | .slice elem | .paren elem | .group elem => elem.hasUser
  | .tuple elems => typesHaveUser elems
  | .traitObject _ bounds | .implTrait bounds => boundsHaveUser bounds
  | .bareFn _ inputs output => typesHaveUser inputs || output.hasUser
  | .other _ => false

def typesHaveUser : List SynType → Bool
  | [] => false
  | ty :: tys => ty.hasUser || typesHaveUser tys

def ReturnType.hasUser : ReturnType → Bool
  | .default => false
  | .type ty => ty.hasUser

def Path.hasUser : Path → Bool
  | .mk leadingColon segments => (Path.mk leadingColon segments).isUser || segmentsHaveUser segments

def segmentsHaveUser : List PathSegment → Bool
  | [] => false
  | .mk _ arguments :: segments => arguments.hasUser || segmentsHaveUser segments

def PathArguments.hasUser : PathArguments → Bool
  | .none => false
  | .angleBracketed args => argsHaveUser args
  | .parenthesized inputs output => typesHaveUser inputs || output.hasUser

def argsHaveUser : List GenericArgument → Bool
  | [] => false
  | .type ty :: args => ty.hasUser || argsHaveUser args
  | .assocType _ generics ty :: args => argsHaveUser generics || ty.hasUser || argsHaveUser args
  | .constraint _ generics bounds :: args => argsHaveUser generics || boundsHaveUser bounds || argsHaveUser args
  | .other _ :: args => argsHaveUser args

def boundsHaveUser : List TypeParamBound → Bool
  | [] => false
  | .trait _ path :: bounds => path.hasUser || boundsHaveUser bounds
  | .other _ :: bounds => boundsHaveUser bounds

end

/-! ## Where the functions go -/

/-- A path in the place of a type, or of the trait of a bound. -/
inductive Position
  | type
  | trait

mutual

/-- Every path of the user's is where the functions go: none is the trait of a bound, or stands within a pointer, a group or
a path that is qualified already, among associated types and constraints, or in parentheses in the path of a type. -/
def SynType.reached : SynType → Bool
  | .path (.mk leadingColon segments) =>
    if (Path.mk leadingColon segments).isQualified then !segmentsHaveUser segments else segmentsReached .type segments
  | .qself ty _ (.mk _ segments) => !(ty.hasUser || segmentsHaveUser segments)
  | .ptr _ elem | .group elem => !elem.hasUser
  | .reference _ elem | .array elem _ | .slice elem | .paren elem => elem.reached
  | .tuple elems => typesReached elems
  | .traitObject _ bounds | .implTrait bounds => boundsReached bounds
  | .bareFn _ inputs output => typesReached inputs && output.reached
  | .other _ => true

def typesReached : List SynType → Bool
  | [] => true
  | ty :: tys => ty.reached && typesReached tys

def ReturnType.reached : ReturnType → Bool
  | .default => true
  | .type ty => ty.reached

def segmentsReached (position : Position) : List PathSegment → Bool
  | [] => true
  | .mk _ arguments :: segments => arguments.reached position && segmentsReached position segments

def PathArguments.reached (position : Position) : PathArguments → Bool
  | .none => true
  | .angleBracketed args => argsReached args
  | .parenthesized inputs output =>
    match position with
    | .type => !(typesHaveUser inputs || output.hasUser)
    | .trait => typesReached inputs && output.reached

def argsReached : List GenericArgument → Bool
  | [] => true
  | .type ty :: args => ty.reached && argsReached args
  | .assocType _ generics ty :: args => !(argsHaveUser generics || ty.hasUser) && argsReached args
  | .constraint _ generics bounds :: args => !(argsHaveUser generics || boundsHaveUser bounds) && argsReached args
  | .other _ :: args => argsReached args

def boundsReached : List TypeParamBound → Bool
  | [] => true
  | .trait _ (.mk leadingColon segments) :: bounds =>
    !(Path.mk leadingColon segments).isUser && segmentsReached .trait segments && boundsReached bounds
  | .other _ :: bounds => boundsReached bounds

end

/-! ## Paths -/

/-- Only the first segment says whose a path is. -/
theorem isUser_congr {leadingColon : Bool} {segments segments' : List PathSegment}
    (h : (Path.mk leadingColon segments').first = (Path.mk leadingColon segments).first) :
    (Path.mk leadingColon segments').isUser = (Path.mk leadingColon segments).isUser := by
  simp only [Path.isUser, Path.isQualified, Path.leadingColon, h]

theorem isUser_prefixedSegments (leadingColon : Bool) (segments : List PathSegment) :
    (Path.mk leadingColon (prefixedSegments segments)).isUser = (Path.mk leadingColon segments).isUser := by
  refine isUser_congr ?_
  cases segments with
  | nil => rfl
  | cons segment segments =>
    obtain ⟨ident, arguments⟩ := segment
    rfl

theorem isUser_qualifySegments (leadingColon : Bool) (segments : List PathSegment) :
    (Path.mk leadingColon (qualifySegments segments)).isUser = (Path.mk leadingColon segments).isUser := by
  refine isUser_congr ?_
  cases segments with
  | nil => rfl
  | cons segment segments =>
    obtain ⟨ident, arguments⟩ := segment
    cases arguments <;> rfl

theorem isUser_qualifyBoundSegments (leadingColon : Bool) (segments : List PathSegment) :
    (Path.mk leadingColon (qualifyBoundSegments segments)).isUser = (Path.mk leadingColon segments).isUser := by
  refine isUser_congr ?_
  cases segments with
  | nil => rfl
  | cons segment segments =>
    obtain ⟨ident, arguments⟩ := segment
    cases arguments <;> rfl

theorem length_prefixedSegments : ∀ segments, (prefixedSegments segments).length = segments.length
  | [] => rfl
  | .mk _ _ :: segments => congrArg (· + 1) (length_prefixedSegments segments)

theorem length_qualifyBoundSegments : ∀ segments, (qualifyBoundSegments segments).length = segments.length
  | [] => rfl
  | .mk _ (.angleBracketed _) :: segments | .mk _ .none :: segments | .mk _ (.parenthesized _ _) :: segments =>
    congrArg (· + 1) (length_qualifyBoundSegments segments)

theorem isUser_super (segments : List PathSegment) : (Path.mk false (.mk "super" .none :: segments)).isUser = false := rfl

theorem leadingColon_of_not_isQualified {leadingColon : Bool} {segments : List PathSegment}
    (h : (Path.mk leadingColon segments).isQualified = false) : leadingColon = false := (Bool.or_eq_false_iff.mp h).1

theorem not_isUser_of_isQualified {path : Path} (h : path.isQualified = true) : path.isUser = false := by
  rw [Path.isUser, h]
  rfl

theorem prefixed_of_isUser {leadingColon : Bool} {segments : List PathSegment}
    (h : (Path.mk leadingColon segments).isUser = true) :
    (Path.mk leadingColon segments).prefixed = .mk leadingColon (.mk "super" .none :: prefixedSegments segments) := by
  rw [Path.prefixed, Path.addSuper, isUser_prefixedSegments, if_pos h]
  rfl

theorem prefixed_of_not_isUser {leadingColon : Bool} {segments : List PathSegment}
    (h : (Path.mk leadingColon segments).isUser = false) :
    (Path.mk leadingColon segments).prefixed = .mk leadingColon (prefixedSegments segments) := by
  rw [Path.prefixed, Path.addSuper, isUser_prefixedSegments, h]
  rfl

/-- What `qualify_type_with_super` makes of a path that is not qualified yet. -/
theorem qualify_path {leadingColon : Bool} {segments : List PathSegment}
    (h : (Path.mk leadingColon segments).isQualified = false) :
    qualifyTypeWithSuper (.path (.mk leadingColon segments)) =
      .path (if (Path.mk leadingColon segments).isUser then .mk false (.mk "super" .none :: qualifySegments segments)
        else .mk false (qualifySegments segments)) := by
  obtain ⟨rfl, hroot⟩ := Bool.or_eq_false_iff.mp h
  rw [qualifyTypeWithSuper, Path.isUser, h, hroot]
  cases (Path.mk false segments).first.any isPreludeOrPrimitive <;> rfl

/-- It leaves one that is. -/
theorem qualify_qualifiedPath {leadingColon : Bool} {segments : List PathSegment}
    (h : (Path.mk leadingColon segments).isQualified = true) :
    qualifyTypeWithSuper (.path (.mk leadingColon segments)) = .path (.mk leadingColon segments) := by
  rw [qualifyTypeWithSuper]
  cases leadingColon with
  | true => rfl
  | false =>
    have hroot : (Path.mk false segments).first.any isRoot = true := h
    rw [hroot]
    rfl

/-! ## No name is left -/

mutual

/-- **A name of the user's is left when it is not where the functions go.** The recursion is that of the syntax, one theorem
for each of its sorts. -/
theorem hasUser_qualifyTypeWithSuper : ∀ ty, (qualifyTypeWithSuper ty).hasUser = !ty.reached
  | .path (.mk leadingColon segments) => by
    cases hqualified : (Path.mk leadingColon segments).isQualified with
    | true =>
      rw [qualify_qualifiedPath hqualified, SynType.hasUser, Path.hasUser, not_isUser_of_isQualified hqualified,
        SynType.reached, if_pos hqualified, Bool.false_or, Bool.not_not]
    | false =>
      have hsegments := hasUser_qualifySegments segments
      rw [qualify_path hqualified, SynType.reached, hqualified]
      cases huser : (Path.mk leadingColon segments).isUser with
      | true =>
        simp only [if_true, SynType.hasUser, Path.hasUser, isUser_super, segmentsHaveUser, PathArguments.hasUser,
          Bool.false_or, hsegments, Bool.false_eq_true, if_false]
      | false =>
        obtain rfl : leadingColon = false := leadingColon_of_not_isQualified hqualified
        simp only [Bool.false_eq_true, if_false, SynType.hasUser, Path.hasUser, isUser_qualifySegments, huser,
          Bool.false_or, hsegments]
  | .qself ty position (.mk leadingColon segments) => by
    simp only [qualifyTypeWithSuper, SynType.hasUser, SynType.reached, Bool.not_not]
  | .reference _ elem => hasUser_qualifyTypeWithSuper elem
  | .ptr _ _ => by simp only [qualifyTypeWithSuper, SynType.hasUser, SynType.reached, Bool.not_not]
  | .tuple elems => hasUser_qualifyEach elems
  | .array elem _ => hasUser_qualifyTypeWithSuper elem
  | .slice elem => hasUser_qualifyTypeWithSuper elem
  | .paren elem => hasUser_qualifyTypeWithSuper elem
  | .group _ => by simp only [qualifyTypeWithSuper, SynType.hasUser, SynType.reached, Bool.not_not]
  | .traitObject _ bounds => hasUser_qualifyBounds bounds
  | .implTrait bounds => hasUser_qualifyBounds bounds
  | .bareFn _ inputs output => by
    simp only [qualifyTypeWithSuper, SynType.hasUser, SynType.reached, hasUser_qualifyEach inputs,
      hasUser_qualifyReturn output, Bool.not_and]
  | .other _ => rfl

theorem hasUser_qualifyEach : ∀ tys, typesHaveUser (qualifyEach tys) = !typesReached tys
  | [] => rfl
  | ty :: tys => by
    simp only [qualifyEach, typesHaveUser, typesReached, hasUser_qualifyTypeWithSuper ty, hasUser_qualifyEach tys,
      Bool.not_and]

theorem hasUser_qualifyReturn : ∀ output, (qualifyReturn output).hasUser = !output.reached
  | .default => rfl
  | .type ty => hasUser_qualifyTypeWithSuper ty

theorem hasUser_qualifySegments : ∀ segments, segmentsHaveUser (qualifySegments segments) = !segmentsReached .type segments
  | [] => rfl
  | .mk _ (.angleBracketed args) :: segments => by
    simp only [qualifySegments, segmentsHaveUser, segmentsReached, PathArguments.hasUser, PathArguments.reached,
      hasUser_qualifyArgs args, hasUser_qualifySegments segments, Bool.not_and]
  | .mk _ .none :: segments => by
    simp only [qualifySegments, segmentsHaveUser, segmentsReached, PathArguments.hasUser, PathArguments.reached,
      hasUser_qualifySegments segments, Bool.false_or, Bool.true_and]
  | .mk _ (.parenthesized _ _) :: segments => by
    simp only [qualifySegments, segmentsHaveUser, segmentsReached, PathArguments.hasUser, PathArguments.reached,
      hasUser_qualifySegments segments, Bool.not_and, Bool.not_not]

theorem hasUser_qualifyArgs : ∀ args, argsHaveUser (qualifyArgs args) = !argsReached args
  | [] => rfl
  | .type ty :: args => by
    simp only [qualifyArgs, argsHaveUser, argsReached, hasUser_qualifyTypeWithSuper ty, hasUser_qualifyArgs args,
      Bool.not_and]
  | .assocType _ _ _ :: args => by
    simp only [qualifyArgs, argsHaveUser, argsReached, hasUser_qualifyArgs args, Bool.not_and, Bool.not_not]
  | .constraint _ _ _ :: args => by
    simp only [qualifyArgs, argsHaveUser, argsReached, hasUser_qualifyArgs args, Bool.not_and, Bool.not_not]
  | .other _ :: args => hasUser_qualifyArgs args

theorem hasUser_qualifyBounds : ∀ bounds, boundsHaveUser (qualifyBounds bounds) = !boundsReached bounds
  | [] => rfl
  | .trait _ (.mk leadingColon segments) :: bounds => by
    simp only [qualifyBounds, qualifyPathWithSuper, boundsHaveUser, boundsReached, Path.hasUser,
      isUser_qualifyBoundSegments, hasUser_qualifyBoundSegments segments, hasUser_qualifyBounds bounds, Bool.not_and,
      Bool.not_not]
  | .other _ :: bounds => hasUser_qualifyBounds bounds

theorem hasUser_qualifyBoundSegments :
    ∀ segments, segmentsHaveUser (qualifyBoundSegments segments) = !segmentsReached .trait segments
  | [] => rfl
  | .mk _ (.angleBracketed args) :: segments => by
    simp only [qualifyBoundSegments, segmentsHaveUser, segmentsReached, PathArguments.hasUser, PathArguments.reached,
      hasUser_qualifyArgs args, hasUser_qualifyBoundSegments segments, Bool.not_and]
  | .mk _ .none :: segments => by
    simp only [qualifyBoundSegments, segmentsHaveUser, segmentsReached, PathArguments.hasUser, PathArguments.reached,
      hasUser_qualifyBoundSegments segments, Bool.false_or, Bool.true_and]
  | .mk _ (.parenthesized inputs output) :: segments => by
    simp only [qualifyBoundSegments, segmentsHaveUser, segmentsReached, PathArguments.hasUser, PathArguments.reached,
      hasUser_qualifyEach inputs, hasUser_qualifyReturn output, hasUser_qualifyBoundSegments segments, Bool.not_and]

end

/-! ## `super::` where it is to stand -/

mutual

/-- Nothing is to be done only where there is no name of the user's. -/
theorem prefixed_eq_self_iff : ∀ ty : SynType, ty.prefixed = ty ↔ ty.hasUser = false
  | .path path => by rw [SynType.prefixed, SynType.path.injEq, SynType.hasUser, path_prefixed_eq_self_iff path]
  | .qself ty _ (.mk _ segments) => by
    simp only [SynType.prefixed, SynType.qself.injEq, Path.mk.injEq, SynType.hasUser, true_and, Bool.or_eq_false_iff,
      prefixed_eq_self_iff ty, prefixedSegments_eq_self_iff segments]
  | .reference _ elem => by
    simp only [SynType.prefixed, SynType.reference.injEq, SynType.hasUser, true_and, prefixed_eq_self_iff elem]
  | .ptr _ elem => by
    simp only [SynType.prefixed, SynType.ptr.injEq, SynType.hasUser, true_and, prefixed_eq_self_iff elem]
  | .tuple elems => by
    simp only [SynType.prefixed, SynType.tuple.injEq, SynType.hasUser, prefixedTypes_eq_self_iff elems]
  | .array elem _ => by
    simp only [SynType.prefixed, SynType.array.injEq, SynType.hasUser, and_true, prefixed_eq_self_iff elem]
  | .slice elem => by simp only [SynType.prefixed, SynType.slice.injEq, SynType.hasUser, prefixed_eq_self_iff elem]
  | .paren elem => by simp only [SynType.prefixed, SynType.paren.injEq, SynType.hasUser, prefixed_eq_self_iff elem]
  | .group elem => by simp only [SynType.prefixed, SynType.group.injEq, SynType.hasUser, prefixed_eq_self_iff elem]
  | .traitObject _ bounds => by
    simp only [SynType.prefixed, SynType.traitObject.injEq, SynType.hasUser, true_and, prefixedBounds_eq_self_iff bounds]
  | .implTrait bounds => by
    simp only [SynType.prefixed, SynType.implTrait.injEq, SynType.hasUser, prefixedBounds_eq_self_iff bounds]
  | .bareFn _ inputs output => by
    simp only [SynType.prefixed, SynType.bareFn.injEq, SynType.hasUser, true_and, Bool.or_eq_false_iff,
      prefixedTypes_eq_self_iff inputs, return_prefixed_eq_self_iff output]
  | .other _ => by simp only [SynType.prefixed, SynType.hasUser]

theorem prefixedTypes_eq_self_iff : ∀ tys, prefixedTypes tys = tys ↔ typesHaveUser tys = false
  | [] => by simp only [prefixedTypes, typesHaveUser]
  | ty :: tys => by
    simp only [prefixedTypes, List.cons.injEq, typesHaveUser, Bool.or_eq_false_iff, prefixed_eq_self_iff ty,
      prefixedTypes_eq_self_iff tys]

theorem return_prefixed_eq_self_iff : ∀ output : ReturnType, output.prefixed = output ↔ output.hasUser = false
  | .default => by simp only [ReturnType.prefixed, ReturnType.hasUser]
  | .type ty => by simp only [ReturnType.prefixed, ReturnType.type.injEq, ReturnType.hasUser, prefixed_eq_self_iff ty]

theorem path_prefixed_eq_self_iff : ∀ path : Path, path.prefixed = path ↔ path.hasUser = false
  | .mk leadingColon segments => by
    rw [Path.hasUser]
    cases huser : (Path.mk leadingColon segments).isUser with
    | true =>
      rw [prefixed_of_isUser huser, Path.mk.injEq]
      refine iff_of_false (fun h => ?_) (by simp)
      have hlength := congrArg List.length h.2
      rw [List.length_cons, length_prefixedSegments] at hlength
      omega
    | false =>
      simp only [prefixed_of_not_isUser huser, Path.mk.injEq, true_and, Bool.false_or,
        prefixedSegments_eq_self_iff segments]

theorem prefixedSegments_eq_self_iff : ∀ segments, prefixedSegments segments = segments ↔ segmentsHaveUser segments = false
  | [] => by simp only [prefixedSegments, segmentsHaveUser]
  | .mk _ arguments :: segments => by
    simp only [prefixedSegments, List.cons.injEq, PathSegment.mk.injEq, true_and, segmentsHaveUser,
      Bool.or_eq_false_iff, arguments_prefixed_eq_self_iff arguments, prefixedSegments_eq_self_iff segments]

theorem arguments_prefixed_eq_self_iff :
    ∀ arguments : PathArguments, arguments.prefixed = arguments ↔ arguments.hasUser = false
  | .none => by simp only [PathArguments.prefixed, PathArguments.hasUser]
  | .angleBracketed args => by
    simp only [PathArguments.prefixed, PathArguments.angleBracketed.injEq, PathArguments.hasUser,
      prefixedArgs_eq_self_iff args]
  | .parenthesized inputs output => by
    simp only [PathArguments.prefixed, PathArguments.parenthesized.injEq, PathArguments.hasUser, Bool.or_eq_false_iff,
      prefixedTypes_eq_self_iff inputs, return_prefixed_eq_self_iff output]

theorem prefixedArgs_eq_self_iff : ∀ args, prefixedArgs args = args ↔ argsHaveUser args = false
  | [] => by simp only [prefixedArgs, argsHaveUser]
  | .type ty :: args => by
    simp only [prefixedArgs, List.cons.injEq, GenericArgument.type.injEq, argsHaveUser, Bool.or_eq_false_iff,
      prefixed_eq_self_iff ty, prefixedArgs_eq_self_iff args]
  | .assocType _ generics ty :: args => by
    simp only [prefixedArgs, List.cons.injEq, GenericArgument.assocType.injEq, true_and, argsHaveUser,
      Bool.or_eq_false_iff, prefixedArgs_eq_self_iff generics, prefixed_eq_self_iff ty, prefixedArgs_eq_self_iff args]
  | .constraint _ generics bounds :: args => by
    simp only [prefixedArgs, List.cons.injEq, GenericArgument.constraint.injEq, true_and, argsHaveUser,
      Bool.or_eq_false_iff, prefixedArgs_eq_self_iff generics, prefixedBounds_eq_self_iff bounds,
      prefixedArgs_eq_self_iff args]
  | .other _ :: args => by
    simp only [prefixedArgs, List.cons.injEq, true_and, argsHaveUser, prefixedArgs_eq_self_iff args]

theorem prefixedBounds_eq_self_iff : ∀ bounds, prefixedBounds bounds = bounds ↔ boundsHaveUser bounds = false
  | [] => by simp only [prefixedBounds, boundsHaveUser]
  | .trait _ path :: bounds => by
    simp only [prefixedBounds, List.cons.injEq, TypeParamBound.trait.injEq, true_and, boundsHaveUser,
      Bool.or_eq_false_iff, path_prefixed_eq_self_iff path, prefixedBounds_eq_self_iff bounds]
  | .other _ :: bounds => by
    simp only [prefixedBounds, List.cons.injEq, true_and, boundsHaveUser, prefixedBounds_eq_self_iff bounds]

end

mutual

/-- **`super::` stands where it is to stand when all names of the user's are where the functions go**, and only then. -/
theorem qualify_eq_prefixed_iff : ∀ ty, qualifyTypeWithSuper ty = ty.prefixed ↔ ty.reached = true
  | .path (.mk leadingColon segments) => by
    cases hqualified : (Path.mk leadingColon segments).isQualified with
    | true =>
      rw [qualify_qualifiedPath hqualified, SynType.prefixed, SynType.path.injEq, eq_comm, path_prefixed_eq_self_iff,
        Path.hasUser, not_isUser_of_isQualified hqualified, Bool.false_or, SynType.reached, if_pos hqualified,
        Bool.not_eq_true']
    | false =>
      obtain rfl : leadingColon = false := leadingColon_of_not_isQualified hqualified
      rw [qualify_path hqualified, SynType.prefixed, SynType.path.injEq, SynType.reached, hqualified]
      cases huser : (Path.mk false segments).isUser with
      | true =>
        simp only [if_true, prefixed_of_isUser huser, Path.mk.injEq, List.cons.injEq, true_and, Bool.false_eq_true,
          if_false, qualifySegments_eq_prefixed_iff segments]
      | false =>
        simp only [Bool.false_eq_true, if_false, prefixed_of_not_isUser huser, Path.mk.injEq, true_and,
          qualifySegments_eq_prefixed_iff segments]
  | .qself ty _ (.mk _ segments) => by
    simp only [qualifyTypeWithSuper, SynType.prefixed, SynType.qself.injEq, Path.mk.injEq, true_and, SynType.reached,
      Bool.not_eq_true', Bool.or_eq_false_iff, @eq_comm _ ty, @eq_comm _ segments, prefixed_eq_self_iff,
      prefixedSegments_eq_self_iff]
  | .reference _ elem => by
    simp only [qualifyTypeWithSuper, SynType.prefixed, SynType.reference.injEq, true_and, SynType.reached,
      qualify_eq_prefixed_iff elem]
  | .ptr _ elem => by
    simp only [qualifyTypeWithSuper, SynType.prefixed, SynType.ptr.injEq, true_and, SynType.reached, Bool.not_eq_true',
      @eq_comm _ elem, prefixed_eq_self_iff]
  | .tuple elems => by
    simp only [qualifyTypeWithSuper, SynType.prefixed, SynType.tuple.injEq, SynType.reached,
      qualifyEach_eq_prefixed_iff elems]
  | .array elem _ => by
    simp only [qualifyTypeWithSuper, SynType.prefixed, SynType.array.injEq, and_true, SynType.reached,
      qualify_eq_prefixed_iff elem]
  | .slice elem => by
    simp only [qualifyTypeWithSuper, SynType.prefixed, SynType.slice.injEq, SynType.reached, qualify_eq_prefixed_iff elem]
  | .paren elem => by
    simp only [qualifyTypeWithSuper, SynType.prefixed, SynType.paren.injEq, SynType.reached, qualify_eq_prefixed_iff elem]
  | .group elem => by
    simp only [qualifyTypeWithSuper, SynType.prefixed, SynType.group.injEq, SynType.reached, Bool.not_eq_true',
      @eq_comm _ elem, prefixed_eq_self_iff]
  | .traitObject _ bounds => by
    simp only [qualifyTypeWithSuper, SynType.prefixed, SynType.traitObject.injEq, true_and, SynType.reached,
      qualifyBounds_eq_prefixed_iff bounds]
  | .implTrait bounds => by
    simp only [qualifyTypeWithSuper, SynType.prefixed, SynType.implTrait.injEq, SynType.reached,
      qualifyBounds_eq_prefixed_iff bounds]
  | .bareFn _ inputs output => by
    simp only [qualifyTypeWithSuper, SynType.prefixed, SynType.bareFn.injEq, true_and, SynType.reached,
      Bool.and_eq_true, qualifyEach_eq_prefixed_iff inputs, qualifyReturn_eq_prefixed_iff output]
  | .other _ => by simp only [qualifyTypeWithSuper, SynType.prefixed, SynType.reached]

theorem qualifyEach_eq_prefixed_iff : ∀ tys, qualifyEach tys = prefixedTypes tys ↔ typesReached tys = true
  | [] => by simp only [qualifyEach, prefixedTypes, typesReached]
  | ty :: tys => by
    simp only [qualifyEach, prefixedTypes, List.cons.injEq, typesReached, Bool.and_eq_true, qualify_eq_prefixed_iff ty,
      qualifyEach_eq_prefixed_iff tys]

theorem qualifyReturn_eq_prefixed_iff :
    ∀ output : ReturnType, qualifyReturn output = output.prefixed ↔ output.reached = true
  | .default => by simp only [qualifyReturn, ReturnType.prefixed, ReturnType.reached]
  | .type ty => by
    simp only [qualifyReturn, ReturnType.prefixed, ReturnType.type.injEq, ReturnType.reached, qualify_eq_prefixed_iff ty]

theorem qualifySegments_eq_prefixed_iff :
    ∀ segments, qualifySegments segments = prefixedSegments segments ↔ segmentsReached .type segments = true
  | [] => by simp only [qualifySegments, prefixedSegments, segmentsReached]
  | .mk _ (.angleBracketed args) :: segments => by
    simp only [qualifySegments, prefixedSegments, PathArguments.prefixed, List.cons.injEq, PathSegment.mk.injEq,
      PathArguments.angleBracketed.injEq, true_and, segmentsReached, PathArguments.reached, Bool.and_eq_true,
      qualifyArgs_eq_prefixed_iff args, qualifySegments_eq_prefixed_iff segments]
  | .mk _ .none :: segments => by
    simp only [qualifySegments, prefixedSegments, PathArguments.prefixed, List.cons.injEq, true_and, segmentsReached,
      PathArguments.reached, Bool.and_eq_true, qualifySegments_eq_prefixed_iff segments]
  | .mk _ (.parenthesized inputs output) :: segments => by
    simp only [qualifySegments, prefixedSegments, PathArguments.prefixed, List.cons.injEq, PathSegment.mk.injEq,
      PathArguments.parenthesized.injEq, true_and, segmentsReached, PathArguments.reached, Bool.and_eq_true,
      Bool.not_eq_true', Bool.or_eq_false_iff, @eq_comm _ inputs, @eq_comm _ output, prefixedTypes_eq_self_iff,
      return_prefixed_eq_self_iff, qualifySegments_eq_prefixed_iff segments]

theorem qualifyArgs_eq_prefixed_iff : ∀ args, qualifyArgs args = prefixedArgs args ↔ argsReached args = true
  | [] => by simp only [qualifyArgs, prefixedArgs, argsReached]
  | .type ty :: args => by
    simp only [qualifyArgs, prefixedArgs, List.cons.injEq, GenericArgument.type.injEq, argsReached, Bool.and_eq_true,
      qualify_eq_prefixed_iff ty, qualifyArgs_eq_prefixed_iff args]
  | .assocType _ generics ty :: args => by
    simp only [qualifyArgs, prefixedArgs, List.cons.injEq, GenericArgument.assocType.injEq, true_and, argsReached,
      Bool.and_eq_true, Bool.not_eq_true', Bool.or_eq_false_iff, @eq_comm _ generics, @eq_comm _ ty,
      prefixedArgs_eq_self_iff, prefixed_eq_self_iff, qualifyArgs_eq_prefixed_iff args]
  | .constraint _ generics bounds :: args => by
    simp only [qualifyArgs, prefixedArgs, List.cons.injEq, GenericArgument.constraint.injEq, true_and, argsReached,
      Bool.and_eq_true, Bool.not_eq_true', Bool.or_eq_false_iff, @eq_comm _ generics, @eq_comm _ bounds,
      prefixedArgs_eq_self_iff, prefixedBounds_eq_self_iff, qualifyArgs_eq_prefixed_iff args]
  | .other _ :: args => by
    simp only [qualifyArgs, prefixedArgs, List.cons.injEq, true_and, argsReached, qualifyArgs_eq_prefixed_iff args]

theorem qualifyBounds_eq_prefixed_iff : ∀ bounds, qualifyBounds bounds = prefixedBounds bounds ↔ boundsReached bounds = true
  | [] => by simp only [qualifyBounds, prefixedBounds, boundsReached]
  | .trait _ (.mk leadingColon segments) :: bounds => by
    rw [qualifyBounds, qualifyPathWithSuper, prefixedBounds, List.cons.injEq, TypeParamBound.trait.injEq, boundsReached]
    cases huser : (Path.mk leadingColon segments).isUser with
    | true =>
      rw [prefixed_of_isUser huser, Path.mk.injEq]
      refine iff_of_false (fun h => ?_) (by simp)
      have hlength := congrArg List.length h.1.2.2
      rw [length_qualifyBoundSegments, List.length_cons, length_prefixedSegments] at hlength
      omega
    | false =>
      simp only [prefixed_of_not_isUser huser, Path.mk.injEq, true_and, Bool.not_false, Bool.true_and, Bool.and_eq_true,
        qualifyBoundSegments_eq_prefixed_iff segments, qualifyBounds_eq_prefixed_iff bounds]
  | .other _ :: bounds => by
    simp only [qualifyBounds, prefixedBounds, List.cons.injEq, true_and, boundsReached,
      qualifyBounds_eq_prefixed_iff bounds]

theorem qualifyBoundSegments_eq_prefixed_iff :
    ∀ segments, qualifyBoundSegments segments = prefixedSegments segments ↔ segmentsReached .trait segments = true
  | [] => by simp only [qualifyBoundSegments, prefixedSegments, segmentsReached]
  | .mk _ (.angleBracketed args) :: segments => by
    simp only [qualifyBoundSegments, prefixedSegments, PathArguments.prefixed, List.cons.injEq, PathSegment.mk.injEq,
      PathArguments.angleBracketed.injEq, true_and, segmentsReached, PathArguments.reached, Bool.and_eq_true,
      qualifyArgs_eq_prefixed_iff args, qualifyBoundSegments_eq_prefixed_iff segments]
  | .mk _ .none :: segments => by
    simp only [qualifyBoundSegments, prefixedSegments, PathArguments.prefixed, List.cons.injEq, true_and,
      segmentsReached, PathArguments.reached, Bool.and_eq_true, qualifyBoundSegments_eq_prefixed_iff segments]
  | .mk _ (.parenthesized inputs output) :: segments => by
    simp only [qualifyBoundSegments, prefixedSegments, PathArguments.prefixed, List.cons.injEq, PathSegment.mk.injEq,
      PathArguments.parenthesized.injEq, true_and, segmentsReached, PathArguments.reached, Bool.and_eq_true,
      qualifyEach_eq_prefixed_iff inputs, qualifyReturn_eq_prefixed_iff output,
      qualifyBoundSegments_eq_prefixed_iff segments]

end

/-- `name` and nothing else. -/
def namePath (name : String) : Path := .mk false [.mk name .none]

/-- `(Vec<Event>, std::sync::Arc<Event>)`: the second is left as it is. -/
example : qualifyTypeWithSuper (.tuple
      [.path (.mk false [.mk "Vec" (.angleBracketed [.type (.path (namePath "Event"))])]),
        .path (.mk false [.mk "std" .none, .mk "sync" .none, .mk "Arc" (.angleBracketed [.type (.path (namePath "Event"))])])]) =
    .tuple
      [.path (.mk false [.mk "Vec" (.angleBracketed [.type (.path (.mk false [.mk "super" .none, .mk "Event" .none]))])]),
        .path (.mk false
          [.mk "std" .none, .mk "sync" .none, .mk "Arc" (.angleBracketed [.type (.path (namePath "Event"))])])] := rfl

end Spawned.Macros
