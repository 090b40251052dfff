import Mathlib.Data.List.Nodup
import Mathlib.Data.List.Perm.Basic
import Spawned.Macros.Names
import Spawned.Macros.Qualify

/-!
# What `#[protocol]` makes of a trait

A message struct for each method, and for each runtime an implementation of the trait for `ActorRef<A>`, where `A` has to
handle the messages. A method may be there in some configurations only: then so is its struct, and the bound on `A` goes
through a marker trait, one for each set of `cfg` attributes, that has two definitions.

* `ItemTrait`, `TraitItemFn`, … : what the macro reads of a trait;
* `protocol` : the macro, up to the tokens it makes of each part; `generateBlanketImpl`, `groupByCfg` : its main loops;
* `Config` : a configuration, which says what a predicate of `cfg` is;
* `BlanketImpl.required` : what `A` has to handle in a configuration;
* `protocol_bounds` : that is the messages that are there, each once;
* `protocol_structs_nodup` : no two structs have one name.
-/

namespace Spawned.Macros

/-! ## The trait -/

inductive AttrPath
  | doc
  | cfg
  | cfgAttr
  | other (name : String)
deriving DecidableEq, Repr

/-- An attribute, with the tokens in its parentheses. -/
structure Attribute where
  path : AttrPath
  args : String := ""
deriving DecidableEq, Repr

/-- The pattern of an argument. -/
inductive Pat
  | ident (name : String)
  | other (tokens : String)

inductive FnArg
  /-- `self`, with `&` or with `mut` -/
  | receiver (reference mutability : Bool)
  | typed (pat : Pat) (ty : SynType)

structure TraitItemFn where
  attrs : List Attribute := []
  asyncness : Bool := false
  ident : String
  inputs : List FnArg
  output : ReturnType := .default

inductive TraitItem
  | fn (method : TraitItemFn)
  | other (tokens : String)

structure ItemTrait where
  ident : String
  /-- the number of generic parameters -/
  generics : Nat := 0
  items : List TraitItem

/-! ## Methods -/

inductive MethodKind
  | send
  | request (inner : SynType)

inductive RuntimeMode
  | tasks
  | threads
deriving DecidableEq, Repr

def isUnitType : SynType → Bool
  | .tuple elems => elems.isEmpty
  | _ => false

/-- The type in angle brackets after the last segment of a path, if that is `name`. -/
def extractInner (name : String) (ty : SynType) : Option SynType :=
  let path : Option Path :=
    match ty with
    | .path path | .qself _ _ path => some path
    | _ => none
  path.bind fun path =>
    match path.segments.getLast? with
    | some (.mk ident (.angleBracketed (.type inner :: _))) => if ident = name then some inner else none
    | _ => none

/-- `extract_response_inner`. -/
def extractResponseInner (ty : SynType) : Option SynType := extractInner "Response" ty

/-- `extract_result_inner`. -/
def extractResultInner (ty : SynType) : Option SynType := extractInner "Result" ty

/-- `classify_return_type`; the error is the type. -/
def classifyReturnType : ReturnType → Except SynType MethodKind
  | .default => .ok .send
  | .type ty =>
    if isUnitType ty then .ok .send
    else
      match extractResponseInner ty with
      | some inner => .ok (.request inner)
      | none =>
        match extractResultInner ty with
        | some inner => if isUnitType inner then .ok .send else .error ty
        | none => .error ty

structure ProtocolMethodInfo where
  methodName : String
  structName : String
  fieldNames : List String
  fieldTypes : List SynType
  kind : MethodKind
  params : List FnArg
  retType : ReturnType
  methodAttrs : List Attribute
  cfgAttrs : List Attribute

def Attribute.isMethodAttr (attr : Attribute) : Bool := attr.path = .doc || attr.path = .cfg || attr.path = .cfgAttr

def Attribute.isCfgAttr (attr : Attribute) : Bool := attr.path = .cfg || attr.path = .cfgAttr

/-- The fields of the arguments after the receiver. -/
def fieldsOf : List FnArg → Except String (List (String × SynType))
  | [] => .ok []
  | .typed (.ident name) ty :: args => do
    let fields ← fieldsOf args
    .ok ((name, ty) :: fields)
  | .typed (.other _) _ :: _ =>
    .error "protocol methods only support simple identifier patterns (e.g., `name: Type`)"
  | .receiver .. :: args => fieldsOf args

def structNameOf (methodName : String) : String := String.ofList (toPascalCase methodName.toList)

/-- The part of the loop over the items that is about one item. -/
def methodInfo : TraitItem → Except String ProtocolMethodInfo
  | .other _ =>
    .error ("protocol traits may only contain methods; " ++
      "associated types, constants, and other items are not supported")
  | .fn method => do
    if method.asyncness then
      .error "protocol methods must not be async; use Response<T> as the return type for requests"
    else
      match method.inputs with
      | .receiver true false :: args =>
        let fields ← fieldsOf args
        match classifyReturnType method.output with
        | .error _ =>
          .error ("unsupported return type in protocol method; " ++
            "use Response<T> for requests (works in both async and sync modes), " ++
            "Result<(), ActorError> for sends, or no return type for fire-and-forget")
        | .ok kind =>
          .ok {
            methodName := method.ident
            structName := structNameOf method.ident
            fieldNames := fields.map (·.1)
            fieldTypes := fields.map (·.2)
            kind
            params := args
            retType := method.output
            methodAttrs := method.attrs.filter Attribute.isMethodAttr
            cfgAttrs := method.attrs.filter Attribute.isCfgAttr }
      | _ => .error "protocol methods must take `&self` as the first parameter"

/-! ## The implementation for one runtime -/

/-- What a method does with its message. -/
inductive MethodBody
  /-- `let _ = self.send(msg);` -/
  | discard
  /-- `self.send(msg)` -/
  | send
  /-- `Response::from_with_timeout(self.request_raw(msg), DEFAULT_REQUEST_TIMEOUT)` -/
  | requestRaw
  /-- `Response::ready(self.request(msg))` -/
  | request
deriving DecidableEq, Repr

structure MethodImpl where
  attrs : List Attribute
  ident : String
  params : List FnArg
  retType : ReturnType
  /-- the struct it makes, with the fields that it fills from the parameters of the same name -/
  msgConstruct : String × List String
  body : MethodBody

/-- The name `__{trait}Cfg{index}{mode}`. -/
structure MarkerName where
  traitName : String
  index : Nat
  mode : RuntimeMode
deriving DecidableEq, Repr

/-- The condition of the definition with bounds; the other one is under its negation. -/
inductive MarkerCfg
  | one (pred : String)
  | all (preds : List String)
deriving DecidableEq, Repr

structure MarkerTrait where
  name : MarkerName
  positive : MarkerCfg
  /-- the structs to be handled -/
  bounds : List String
deriving DecidableEq, Repr

structure BlanketImpl where
  mode : RuntimeMode
  markers : List MarkerTrait
  /-- the structs to be handled in any configuration -/
  handlerBounds : List String
  methods : List MethodImpl

abbrev CfgGroup := List Attribute × List ProtocolMethodInfo

/-- A method goes to the first group with its attributes, or to a new one at the end. The key of a group in the source is
the text of its attributes. -/
def addToGroup (m : ProtocolMethodInfo) : List CfgGroup → List CfgGroup
  | [] => [(m.cfgAttrs, [m])]
  | group :: groups =>
    if group.1 = m.cfgAttrs then (group.1, group.2 ++ [m]) :: groups else group :: addToGroup m groups

def groupByCfg (methods : List ProtocolMethodInfo) : List CfgGroup :=
  (methods.filter fun m => !m.cfgAttrs.isEmpty).foldl (fun groups m => addToGroup m groups) []

/-- `cfg_predicates` of the attributes of a group. -/
def cfgPredicates (attrs : List Attribute) : List String := (attrs.filter (·.path = .cfg)).map (·.args)

def positiveCfg : List String → MarkerCfg
  | [pred] => .one pred
  | preds => .all preds

def markerOf (traitName : String) (mode : RuntimeMode) (i : Nat) (group : CfgGroup) : MarkerTrait where
  name := ⟨traitName, i, mode⟩
  positive := positiveCfg (cfgPredicates group.1)
  bounds := group.2.map (·.structName)

def isUnitReturn : ReturnType → Bool
  | .default => true
  | .type ty => isUnitType ty

def methodImpl (mode : RuntimeMode) (m : ProtocolMethodInfo) : MethodImpl where
  attrs := m.methodAttrs
  ident := m.methodName
  params := m.params
  retType := m.retType
  msgConstruct := (m.structName, m.fieldNames)
  body :=
    match m.kind with
    | .send => if isUnitReturn m.retType then .discard else .send
    | .request _ =>
      match mode with
      | .tasks => .requestRaw
      | .threads => .request

def generateBlanketImpl (traitName : String) (methods : List ProtocolMethodInfo) (mode : RuntimeMode) : BlanketImpl where
  mode := mode
  markers := (groupByCfg methods).mapIdx (markerOf traitName mode)
  handlerBounds := (methods.filter (·.cfgAttrs.isEmpty)).map (·.structName)
  methods := methods.map (methodImpl mode)

/-! ## The macro -/

structure MessageStruct where
  attrs : List Attribute
  name : String
  fields : List (String × SynType)
  /-- without fields it derives `Clone` -/
  clone : Bool
  implAttrs : List Attribute
  result : SynType

def messageStruct (m : ProtocolMethodInfo) : MessageStruct where
  attrs := m.methodAttrs
  name := m.structName
  fields := m.fieldNames.zip (m.fieldTypes.map qualifyTypeWithSuper)
  clone := m.fieldNames.isEmpty
  implAttrs := m.cfgAttrs
  result :=
    match m.kind with
    | .send => .tuple []
    | .request inner => qualifyTypeWithSuper inner

structure Protocol where
  modName : String
  refName : String
  converterTrait : String
  converterMethod : String
  structs : List MessageStruct
  tasks : BlanketImpl
  threads : BlanketImpl

def protocol (t : ItemTrait) : Except String Protocol :=
  if t.generics ≠ 0 then .error "generic type parameters on protocol traits are not supported"
  else do
    let base := stripProtocolSuffix t.ident.toList
    let methods ← t.items.mapM methodInfo
    .ok {
      modName := String.ofList (toSnakeCase t.ident.toList)
      refName := String.ofList (base ++ "Ref".toList)
      converterTrait := String.ofList ("To".toList ++ base ++ "Ref".toList)
      converterMethod := String.ofList ("to_".toList ++ toSnakeCase base ++ "_ref".toList)
      structs := methods.map messageStruct
      tasks := generateBlanketImpl t.ident methods .tasks
      threads := generateBlanketImpl t.ident methods .threads }

/-! ## Configurations -/

structure Config where
  /-- what a predicate of `cfg` is -/
  holds : String → Bool
  /-- an item with this `cfg_attr` stays, whatever that stands for -/
  keeps : String → Bool

def Attribute.keeps (c : Config) (attr : Attribute) : Bool :=
  match attr.path with
  | .cfg => c.holds attr.args
  | .cfgAttr => c.keeps attr.args
  | .doc | .other _ => true

/-- An item with these attributes is there. -/
def present (c : Config) (attrs : List Attribute) : Bool := attrs.all (·.keeps c)

def MarkerCfg.holds (c : Config) : MarkerCfg → Bool
  | .one pred => c.holds pred
  | .all preds => preds.all c.holds

/-- The structs that an actor has to handle for its reference to have the trait. -/
def BlanketImpl.required (c : Config) (impl : BlanketImpl) : List String :=
  impl.handlerBounds ++ impl.markers.flatMap fun marker => if marker.positive.holds c then marker.bounds else []

/-- All predicates of the `cfg` attributes hold. -/
def cfgHolds (c : Config) (attrs : List Attribute) : Bool := (cfgPredicates attrs).all c.holds

section Groups

variable {m : ProtocolMethodInfo} {groups : List CfgGroup} {methods : List ProtocolMethodInfo} {c : Config}

theorem holds_positiveCfg (preds : List String) : (positiveCfg preds).holds c = preds.all c.holds := by
  unfold positiveCfg
  split
  case h_1 pred => simp [MarkerCfg.holds]
  case h_2 => rfl

/-- The members of a group have its attributes. -/
def Grouped (groups : List CfgGroup) : Prop := ∀ group ∈ groups, ∀ m ∈ group.2, m.cfgAttrs = group.1

theorem grouped_addToGroup (h : Grouped groups) (m : ProtocolMethodInfo) : Grouped (addToGroup m groups) := by
  induction groups with
  | nil =>
    intro group hgroup m' hm'
    obtain rfl : group = (m.cfgAttrs, [m]) := by simpa [addToGroup] using hgroup
    obtain rfl : m' = m := by simpa using hm'
    rfl
  | cons first groups ih =>
    have hrest : Grouped groups := fun group hgroup => h group (List.mem_cons_of_mem _ hgroup)
    unfold addToGroup
    split_ifs with hkey
    · intro group hgroup m' hm'
      rcases List.mem_cons.mp hgroup with rfl | hgroup
      · rcases List.mem_append.mp hm' with hm' | hm'
        · exact h first (List.mem_cons_self ..) m' hm'
        · obtain rfl : m' = m := by simpa using hm'
          exact hkey.symm
      · exact hrest group hgroup m' hm'
    · intro group hgroup m' hm'
      rcases List.mem_cons.mp hgroup with rfl | hgroup
      · exact h group (List.mem_cons_self ..) m' hm'
      · exact ih hrest group hgroup m' hm'

theorem perm_addToGroup (groups : List CfgGroup) (m : ProtocolMethodInfo) :
    ((addToGroup m groups).flatMap (·.2)).Perm (groups.flatMap (·.2) ++ [m]) := by
  induction groups with
  | nil => simp [addToGroup]
  | cons first groups ih =>
    unfold addToGroup
    split_ifs with hkey
    · simp only [List.flatMap_cons, List.append_assoc]
      exact List.perm_append_comm.append_left _
    · simp only [List.flatMap_cons, List.append_assoc]
      exact ih.append_left _

/-- The groups have all methods with attributes of a configuration, each with its own. -/
theorem groupByCfg_spec (methods : List ProtocolMethodInfo) :
    Grouped (groupByCfg methods) ∧
      ((groupByCfg methods).flatMap (·.2)).Perm (methods.filter fun m => !m.cfgAttrs.isEmpty) := by
  have hfold : ∀ (ms : List ProtocolMethodInfo) (groups : List CfgGroup), Grouped groups →
      Grouped (ms.foldl (fun groups m => addToGroup m groups) groups) ∧
        ((ms.foldl (fun groups m => addToGroup m groups) groups).flatMap (·.2)).Perm (groups.flatMap (·.2) ++ ms) := by
    intro ms
    induction ms with
    | nil => exact fun groups hgroups => ⟨hgroups, by simp⟩
    | cons m ms ih =>
      intro groups hgroups
      obtain ⟨hgrouped, hperm⟩ := ih (addToGroup m groups) (grouped_addToGroup hgroups m)
      refine ⟨hgrouped, hperm.trans ?_⟩
      have hone := (perm_addToGroup groups m).append_right ms
      rwa [List.append_assoc, List.singleton_append] at hone
  exact hfold _ [] (by simp [Grouped])

/-- What the markers ask for, whatever their names. -/
theorem flatMap_markers {marker : Nat → CfgGroup → MarkerTrait}
    (hpositive : ∀ i group, (marker i group).positive = positiveCfg (cfgPredicates group.1))
    (hbounds : ∀ i group, (marker i group).bounds = group.2.map (·.structName)) (h : Grouped groups) :
    (groups.mapIdx marker).flatMap (fun marker => if marker.positive.holds c then marker.bounds else []) =
      ((groups.flatMap (·.2)).filter fun m => cfgHolds c m.cfgAttrs).map (·.structName) := by
  induction groups generalizing marker with
  | nil => rfl
  | cons group groups ih =>
    have hgroup : ∀ m ∈ group.2, cfgHolds c m.cfgAttrs = cfgHolds c group.1 :=
      fun m hm => by rw [h group (List.mem_cons_self ..) m hm]
    have hmembers : (if (marker 0 group).positive.holds c then (marker 0 group).bounds else []) =
        (group.2.filter fun m => cfgHolds c m.cfgAttrs).map (·.structName) := by
      rw [hpositive, hbounds, holds_positiveCfg, List.filter_congr hgroup]
      by_cases hc : cfgHolds c group.1 = true
      · rw [hc, List.filter_true]
        exact if_pos hc
      · rw [Bool.not_eq_true] at hc
        rw [hc, List.filter_false, List.map_nil]
        exact if_neg (by rw [← cfgHolds, hc]; decide)
    rw [List.mapIdx_cons, List.flatMap_cons, hmembers, List.flatMap_cons, List.filter_append, List.map_append]
    exact congrArg _ (ih (fun i group => hpositive (i + 1) group) (fun i group => hbounds (i + 1) group)
      fun group hgroup => h group (List.mem_cons_of_mem _ hgroup))

theorem cfgHolds_of_isEmpty {attrs : List Attribute} (h : attrs.isEmpty = true) : cfgHolds c attrs = true := by
  rw [List.isEmpty_iff.mp h]
  rfl

/-- Either way, the structs whose predicates hold. -/
theorem required_generateBlanketImpl (traitName : String) (methods : List ProtocolMethodInfo) (mode : RuntimeMode)
    (c : Config) : ((generateBlanketImpl traitName methods mode).required c).Perm
      ((methods.filter fun m => cfgHolds c m.cfgAttrs).map (·.structName)) := by
  obtain ⟨hgrouped, hperm⟩ := groupByCfg_spec methods
  have hmarkers : (generateBlanketImpl traitName methods mode).required c =
      (methods.filter (·.cfgAttrs.isEmpty)).map (·.structName) ++
        (((groupByCfg methods).flatMap (·.2)).filter fun m => cfgHolds c m.cfgAttrs).map (·.structName) :=
    congrArg _ (flatMap_markers (fun _ _ => rfl) (fun _ _ => rfl) hgrouped)
  have hfree : methods.filter (·.cfgAttrs.isEmpty) =
      (methods.filter fun m => cfgHolds c m.cfgAttrs).filter (·.cfgAttrs.isEmpty) := by
    rw [List.filter_filter]
    refine List.filter_congr fun m _ => ?_
    cases hm : m.cfgAttrs.isEmpty with
    | true => simp [cfgHolds_of_isEmpty hm]
    | false => simp
  have hgated : (methods.filter fun m => !m.cfgAttrs.isEmpty).filter (fun m => cfgHolds c m.cfgAttrs) =
      (methods.filter fun m => cfgHolds c m.cfgAttrs).filter fun m => !m.cfgAttrs.isEmpty := List.filter_comm _ _ _
  rw [hmarkers, hfree, ← List.map_append]
  refine ((hperm.filter _).append_left _ |>.map _).trans ?_
  rw [hgated]
  exact (List.filter_append_perm _ _).map _

end Groups

/-! ## Accepted traits -/

/-- What is left of a method. -/
theorem methodInfo_ok {item : TraitItem} {m : ProtocolMethodInfo} (h : methodInfo item = .ok m) :
    ∃ method, item = .fn method ∧ m.methodName = method.ident ∧ m.structName = structNameOf method.ident ∧
      m.methodAttrs = method.attrs.filter Attribute.isMethodAttr ∧ m.cfgAttrs = method.attrs.filter Attribute.isCfgAttr := by
  cases item with
  | other tokens => cases h
  | fn method =>
    refine ⟨method, rfl, ?_⟩
    simp only [methodInfo] at h
    split_ifs at h
    split at h
    case h_2 => cases h
    case h_1 args _ =>
      cases hfields : fieldsOf args with
      | error e =>
        rw [hfields] at h
        cases h
      | ok fields =>
        rw [hfields] at h
        cases hkind : classifyReturnType method.output with
        | error ty =>
          simp only [hkind] at h
          cases h
        | ok kind =>
          simp only [hkind] at h
          cases h
          exact ⟨rfl, rfl, rfl, rfl⟩

theorem mem_of_mapM {A B E : Type} {f : A → Except E B} {xs : List A} {ys : List B} (h : xs.mapM f = .ok ys) :
    ∀ y ∈ ys, ∃ x ∈ xs, f x = .ok y := by
  induction xs generalizing ys with
  | nil =>
    cases h
    simp
  | cons x xs ih =>
    rw [List.mapM_cons] at h
    cases hx : f x with
    | error e =>
      rw [hx] at h
      cases h
    | ok y =>
      cases hxs : xs.mapM f with
      | error e =>
        rw [hx, hxs] at h
        cases h
      | ok rest =>
        rw [hx, hxs] at h
        cases h
        intro y' hy'
        rcases List.mem_cons.mp hy' with rfl | hy'
        · exact ⟨x, List.mem_cons_self .., hx⟩
        · obtain ⟨x', hx', heq⟩ := ih hxs y' hy'
          exact ⟨x', List.mem_cons_of_mem _ hx', heq⟩

/-- The parts of the expansion are made of the same methods. -/
theorem protocol_ok {t : ItemTrait} {out : Protocol} (h : protocol t = .ok out) :
    ∃ methods : List ProtocolMethodInfo, (∀ m ∈ methods, ∃ item ∈ t.items, methodInfo item = .ok m) ∧
      out.structs = methods.map messageStruct ∧ out.tasks = generateBlanketImpl t.ident methods .tasks ∧
      out.threads = generateBlanketImpl t.ident methods .threads := by
  unfold protocol at h
  split_ifs at h
  cases hmethods : t.items.mapM methodInfo with
  | error e =>
    simp only [hmethods] at h
    cases h
  | ok methods =>
    simp only [hmethods] at h
    cases h
    exact ⟨methods, mem_of_mapM hmethods, rfl, rfl, rfl⟩

section Accepted

variable {t : ItemTrait} {out : Protocol} {c : Config}

/-- The attributes of a method that have to do with configurations decide where its struct is. -/
theorem present_methodAttrs (attrs : List Attribute)
    (hkeeps : ∀ attr ∈ attrs.filter Attribute.isMethodAttr, attr.path = .cfgAttr → c.keeps attr.args = true) :
    present c (attrs.filter Attribute.isMethodAttr) = cfgHolds c (attrs.filter Attribute.isCfgAttr) := by
  induction attrs with
  | nil => rfl
  | cons attr attrs ih =>
    obtain ⟨path, args⟩ := attr
    cases path with
    | other name => exact ih hkeeps
    | doc => exact ih fun attr hattr => hkeeps attr (List.mem_cons_of_mem _ hattr)
    | cfg => exact congrArg (c.holds args && ·) (ih fun attr hattr => hkeeps attr (List.mem_cons_of_mem _ hattr))
    | cfgAttr =>
      have hkept : c.keeps args = true := hkeeps ⟨.cfgAttr, args⟩ (List.mem_cons_self ..) rfl
      have hrest := ih fun attr hattr => hkeeps attr (List.mem_cons_of_mem _ hattr)
      show (c.keeps args && present c (attrs.filter Attribute.isMethodAttr)) = _
      rw [hkept, hrest]
      rfl

/-- **The bounds of the two implementations.** In every configuration in which a `cfg_attr` takes no method away, an actor
has to handle the messages of the methods that are there, each once, for its reference to have the trait. -/
theorem protocol_bounds (h : protocol t = .ok out)
    (hkeeps : ∀ s ∈ out.structs, ∀ attr ∈ s.attrs, attr.path = .cfgAttr → c.keeps attr.args = true) :
    ∀ impl ∈ [out.tasks, out.threads],
      (impl.required c).Perm ((out.structs.filter fun s => present c s.attrs).map (·.name)) := by
  obtain ⟨methods, hmethods, hstructs, htasks, hthreads⟩ := protocol_ok h
  have hpresent : (out.structs.filter fun s => present c s.attrs).map (·.name) =
      (methods.filter fun m => cfgHolds c m.cfgAttrs).map (·.structName) := by
    rw [hstructs, List.filter_map, List.map_map]
    refine congrArg _ (List.filter_congr fun m hm => ?_)
    obtain ⟨item, -, hitem⟩ := hmethods m hm
    obtain ⟨method, -, -, -, hattrs, hcfg⟩ := methodInfo_ok hitem
    have hstruct := hkeeps (messageStruct m) (hstructs ▸ List.mem_map_of_mem hm)
    rw [Function.comp_apply, hcfg]
    simp only [messageStruct, hattrs] at hstruct ⊢
    exact present_methodAttrs method.attrs hstruct
  simp only [List.forall_mem_cons, hpresent]
  refine ⟨?_, ?_, by simp⟩
  · rw [htasks]
    exact required_generateBlanketImpl ..
  · rw [hthreads]
    exact required_generateBlanketImpl ..

/-- A protocol with two methods under a feature, each with an attribute of its own. -/
def counterProtocol : ItemTrait where
  ident := "CounterProtocol"
  items :=
    [.fn {
      ident := "get_count"
      inputs := [.receiver true false]
      output := .type (.path (.mk false [.mk "Response" (.angleBracketed [.type (.path (namePath "u64"))])])) },
    .fn {
      attrs := [{ path := .cfg, args := "feature = \"reset\"" }]
      ident := "reset"
      inputs := [.receiver true false] },
    .fn {
      attrs := [{ path := .doc }, { path := .cfg, args := "feature = \"reset\"" }]
      ident := "add"
      inputs := [.receiver true false, .typed (.ident "amount") (.path (namePath "u64"))] }]

/-- Without the feature. -/
def noReset : Config where
  holds _ := false
  keeps _ := true

theorem protocol_bounds_counter :
    ∃ out, protocol counterProtocol = .ok out ∧ ∀ impl ∈ [out.tasks, out.threads],
      (impl.required noReset).Perm ((out.structs.filter fun s => present noReset s.attrs).map (·.name)) :=
  ⟨_, rfl, protocol_bounds (t := counterProtocol) rfl fun _ _ _ _ _ => rfl⟩

/-- **No two structs of a configuration have one name**, if the methods that are there have different names, made of words
of small letters and digits that begin with a letter. -/
theorem protocol_structs_nodup (h : protocol t = .ok out)
    (hnames : ∀ m ∈ out.tasks.methods.filter fun m => present c m.attrs,
      ∃ words, (∀ word ∈ words, SnakeWord word) ∧ m.ident.toList = snakeName words)
    (hdistinct : ((out.tasks.methods.filter fun m => present c m.attrs).map (·.ident)).Nodup) :
    ((out.structs.filter fun s => present c s.attrs).map (·.name)).Nodup := by
  obtain ⟨methods, hmethods, hstructs, htasks, -⟩ := protocol_ok h
  have hstruct : ∀ m ∈ methods, m.structName = structNameOf m.methodName := by
    intro m hm
    obtain ⟨item, hitem, hok⟩ := hmethods m hm
    obtain ⟨method, rfl, hname, hstruct, -⟩ := methodInfo_ok hok
    rw [hstruct, hname]
  have hthere : (out.structs.filter fun s => present c s.attrs).map (·.name) =
      (methods.filter fun m => present c m.methodAttrs).map (·.structName) := by
    rw [hstructs, List.filter_map, List.map_map]
    rfl
  have hidents : (out.tasks.methods.filter fun m => present c m.attrs).map (·.ident) =
      (methods.filter fun m => present c m.methodAttrs).map (·.methodName) := by
    rw [htasks, generateBlanketImpl, List.filter_map, List.map_map]
    rfl
  have hwords : ∀ m ∈ methods.filter fun m => present c m.methodAttrs,
      ∃ words, (∀ word ∈ words, SnakeWord word) ∧ m.methodName.toList = snakeName words := by
    intro m hm
    have hname := List.mem_map_of_mem (f := (·.methodName)) hm
    rw [← hidents] at hname
    obtain ⟨impl, himpl, heq⟩ := List.mem_map.mp hname
    rw [← heq]
    exact hnames impl himpl
  rw [hidents] at hdistinct
  have hnodup := List.inj_on_of_nodup_map hdistinct
  rw [hthere]
  refine hdistinct.of_map.map_on fun m hm m' hm' heq => ?_
  obtain ⟨words, hw, hword⟩ := hwords m hm
  obtain ⟨words', hw', hword'⟩ := hwords m' hm'
  refine hnodup hm hm' ?_
  by_contra hne
  have hdiff : snakeName words ≠ snakeName words' := by
    rw [← hword, ← hword']
    exact fun heq => hne (String.toList_injective heq)
  refine toPascalCase_ne hw hw' hdiff ?_
  rw [← hword, ← hword']
  rw [hstruct m (List.mem_filter.mp hm).1, hstruct m' (List.mem_filter.mp hm').1] at heq
  exact String.ofList_injective heq

/-- With the feature all three methods are there. -/
theorem protocol_structs_nodup_counter :
    ∃ out, protocol counterProtocol = .ok out ∧
      ((out.structs.filter fun s => present { noReset with holds := fun _ => true } s.attrs).map (·.name)).Nodup := by
  refine ⟨_, rfl, protocol_structs_nodup (t := counterProtocol) rfl ?_ (by decide)⟩
  intro m hm
  have hname : m.ident ∈ ["get_count", "reset", "add"] := List.mem_map_of_mem (f := (·.ident)) hm
  simp only [List.mem_cons, List.not_mem_nil, or_false] at hname
  rcases hname with hname | hname | hname
  · rw [hname]
    refine ⟨["get".toList, "count".toList], ?_, by decide⟩
    simp only [List.forall_mem_cons]
    exact ⟨⟨'g', "et".toList, rfl, by decide, List.all_eq_true.mp (by decide)⟩,
      ⟨'c', "ount".toList, rfl, by decide, List.all_eq_true.mp (by decide)⟩, by simp⟩
  · rw [hname]
    refine ⟨["reset".toList], ?_, by decide⟩
    simp only [List.forall_mem_cons]
    exact ⟨⟨'r', "eset".toList, rfl, by decide, List.all_eq_true.mp (by decide)⟩, by simp⟩
  · rw [hname]
    refine ⟨["add".toList], ?_, by decide⟩
    simp only [List.forall_mem_cons]
    exact ⟨⟨'a', "dd".toList, rfl, by decide, List.all_eq_true.mp (by decide)⟩, by simp⟩

end Accepted

end Spawned.Macros
