import Mathlib.Logic.Function.Basic
import Mathlib.Tactic.Common

/-!
# A tree of files and directories

Locations are lists of names from the root.  A tree has a working directory and keeps a journal of
the directories and files made and the files opened for writing or written.  Paths are lists of
steps, resolved either lexically or by walking the tree, as one system or another does.
-/

/-- One step of a path: `.`, `..`, or a name. -/
inductive Step (ν : Type) where
  | stay
  | up
  | down (name : ν)
  deriving DecidableEq

inductive Node (β : Type) where
  | dir
  | file (content : β)

/-- What was done at a location. -/
inductive Change (ν : Type) where
  | madeDir (loc : List ν)
  | madeFile (loc : List ν)
  | wrote (loc : List ν)

def Change.loc {ν : Type} : Change ν → List ν
  | .madeDir loc | .madeFile loc | .wrote loc => loc

/-- The tree.  Locations that are `readOnly` can be neither made nor written. -/
structure FileTree (ν β : Type) where
  node : List ν → Option (Node β)
  cwd : List ν
  readOnly : List ν → Bool
  journal : List (Change ν)
  cwd_dir : node cwd = some .dir
  parent_dir : ∀ loc name, (node (loc ++ [name])).isSome → node loc = some .dir

namespace FileTree

variable {ν β : Type}

def isDir (t : FileTree ν β) (loc : List ν) : Bool :=
  match t.node loc with
  | some .dir => true
  | _ => false

def isFile (t : FileTree ν β) (loc : List ν) : Bool :=
  match t.node loc with
  | some (.file _) => true
  | _ => false

@[simp] theorem isDir_iff (t : FileTree ν β) (loc : List ν) :
    t.isDir loc = true ↔ t.node loc = some .dir := by
  unfold isDir
  split <;> simp_all

theorem isFile_iff (t : FileTree ν β) (loc : List ν) :
    t.isFile loc = true ↔ ∃ content, t.node loc = some (.file content) := by
  unfold isFile
  split <;> simp_all

/-- The content of the file at a location, if there is a file. -/
def content (t : FileTree ν β) (loc : List ν) : Option β :=
  match t.node loc with
  | some (.file bytes) => some bytes
  | _ => none

theorem content_eq_some {t : FileTree ν β} {loc : List ν} {bytes : β} :
    t.content loc = some bytes ↔ t.node loc = some (.file bytes) := by
  unfold content
  split <;> simp_all

theorem content_eq_none {t : FileTree ν β} {loc : List ν} :
    t.content loc = none ↔ t.node loc = none ∨ t.node loc = some .dir := by
  unfold content
  split
  case h_1 h => simp [h]
  case h_2 h =>
    cases hnode : t.node loc with
    | none => simp
    | some n =>
      cases n with
      | dir => simp
      | file bytes => exact absurd hnode (h bytes)

/-- A tree with nothing but its root, which is the working directory. -/
def root : FileTree ν β where
  node loc := if loc.isEmpty then some .dir else none
  cwd := []
  readOnly _ := false
  journal := []
  cwd_dir := rfl
  parent_dir := by simp

theorem dir_of_append (t : FileTree ν β) (loc : List ν) {rest : List ν} (hrest : rest ≠ [])
    (h : (t.node (loc ++ rest)).isSome) : t.node loc = some .dir := by
  induction rest generalizing loc with
  | nil => exact absurd rfl hrest
  | cons name rest ih =>
    have happ : loc ++ name :: rest = (loc ++ [name]) ++ rest := by simp
    rw [happ] at h
    -- by induction the next location is a directory, unless it is the last one, which exists
    by_cases hr : rest = []
    · subst hr
      exact t.parent_dir loc name (by simpa using h)
    · exact t.parent_dir loc name (by rw [ih (loc ++ [name]) hr h]; rfl)

theorem node_dropLast (t : FileTree ν β) {loc : List ν} (h : t.node loc = some .dir) :
    t.node loc.dropLast = some .dir := by
  by_cases hne : loc = []
  · rw [hne] at h ⊢
    exact h
  · apply t.parent_dir _ (loc.getLast hne)
    rw [List.dropLast_concat_getLast, h]
    rfl

/-! ## 1. Resolving paths -/

/-- `..` is the parent whatever comes before it; the root is its own parent. -/
def lexical (loc : List ν) : List (Step ν) → List ν
  | [] => loc
  | .stay :: steps => lexical loc steps
  | .up :: steps => lexical loc.dropLast steps
  | .down name :: steps => lexical (loc ++ [name]) steps

/-- Every step but the last must reach a directory. -/
def walk (t : FileTree ν β) (loc : List ν) : List (Step ν) → Option (List ν)
  | [] => some loc
  | step :: steps =>
      if t.isDir loc then
        match step with
        | .stay => walk t loc steps
        | .up => walk t loc.dropLast steps
        | .down name => walk t (loc ++ [name]) steps
      else none

theorem lexical_append (loc : List ν) (steps steps' : List (Step ν)) :
    lexical loc (steps ++ steps') = lexical (lexical loc steps) steps' := by
  induction steps generalizing loc with
  | nil => rfl
  | cons step steps ih => cases step <;> exact ih _

theorem lexical_downs (loc names : List ν) : lexical loc (names.map .down) = loc ++ names := by
  induction names generalizing loc with
  | nil => simp [lexical]
  | cons name names ih => simp only [List.map_cons, lexical, ih, List.append_assoc]; rfl

-- without links a walk ends where the lexical reading does
theorem lexical_of_walk {t : FileTree ν β} {loc loc' : List ν} {steps : List (Step ν)}
    (h : t.walk loc steps = some loc') : lexical loc steps = loc' := by
  induction steps generalizing loc with
  | nil => exact Option.some.inj h
  | cons step steps ih =>
    unfold walk at h
    split at h
    · cases step <;> exact ih h
    · cases h

theorem walk_append {t : FileTree ν β} {loc : List ν} {steps steps' : List (Step ν)} :
    t.walk loc (steps ++ steps') = (t.walk loc steps).bind fun loc' => t.walk loc' steps' := by
  induction steps generalizing loc with
  | nil => rfl
  | cons step steps ih =>
    simp only [List.cons_append, walk]
    split
    · cases step <;> exact ih
    · rfl

theorem walk_dir {t : FileTree ν β} {loc names : List ν} (h : t.node (loc ++ names) = some .dir) :
    t.walk loc (names.map .down) = some (loc ++ names) := by
  induction names generalizing loc with
  | nil => simp [walk]
  | cons n names ih =>
    have hloc : t.node loc = some .dir :=
      t.dir_of_append loc (List.cons_ne_nil n names) (by rw [h]; rfl)
    have happ : loc ++ n :: names = loc ++ [n] ++ names := by simp
    rw [happ] at h ⊢
    simp only [List.map_cons, walk, (t.isDir_iff loc).mpr hloc, if_true, ih h]

-- the last name of a walk need not exist
theorem walk_in_dir {t : FileTree ν β} {loc names : List ν} (name : ν)
    (h : t.node (loc ++ names) = some .dir) :
    t.walk loc ((names ++ [name]).map .down) = some (loc ++ names ++ [name]) := by
  rw [List.map_append, walk_append, walk_dir h, Option.bind_some]
  simp [walk, isDir, h]

theorem walk_missing {t : FileTree ν β} {loc names : List ν} {step : Step ν}
    {steps : List (Step ν)} (h : t.node (loc ++ names) = none) :
    t.walk loc (names.map .down ++ step :: steps) = none := by
  rw [walk_append]
  cases hwalk : t.walk loc (names.map .down) with
  | none => rfl
  | some loc' =>
    have hloc' : loc ++ names = loc' := by rw [← lexical_of_walk hwalk, lexical_downs]
    rw [hloc'] at h
    simp [walk, isDir, h]

/-! ## 2. Placing a node -/

-- the parent has to be a directory, and a directory is never overwritten
def Admits (t : FileTree ν β) (loc : List ν) : Prop :=
  loc.isEmpty = false ∧ t.isDir loc.dropLast = true ∧ t.isDir loc = false

instance (t : FileTree ν β) (loc : List ν) : Decidable (t.Admits loc) :=
  inferInstanceAs (Decidable (_ ∧ _ ∧ _))

theorem Admits.node_ne_dir {t : FileTree ν β} {loc : List ν} (h : t.Admits loc) :
    t.node loc ≠ some .dir := by
  rw [ne_eq, ← isDir_iff, h.2.2]
  exact Bool.noConfusion

theorem Admits.parent {t : FileTree ν β} {loc : List ν} {name : ν}
    (h : t.Admits (loc ++ [name])) : t.node loc = some .dir := by
  have := h.2.1
  rwa [List.dropLast_concat, isDir_iff] at this

theorem admits_concat {t : FileTree ν β} {loc : List ν} {name : ν} (hdir : t.node loc = some .dir)
    (hne : t.node (loc ++ [name]) ≠ some .dir) : t.Admits (loc ++ [name]) := by
  refine ⟨by simp, ?_, ?_⟩
  · rwa [List.dropLast_concat, isDir_iff]
  · rwa [← Bool.not_eq_true, isDir_iff]

def record (t : FileTree ν β) (change : Change ν) : FileTree ν β :=
  { t with journal := t.journal ++ [change] }

@[simp] theorem node_record (t : FileTree ν β) (change : Change ν) :
    (t.record change).node = t.node := rfl

@[simp] theorem journal_record (t : FileTree ν β) (change : Change ν) :
    (t.record change).journal = t.journal ++ [change] := rfl

variable [DecidableEq ν]

/-- Put a node where there is room for it. -/
def place (t : FileTree ν β) (loc : List ν) (n : Node β) (h : t.Admits loc) : FileTree ν β where
  node := Function.update t.node loc (some n)
  cwd := t.cwd
  readOnly := t.readOnly
  journal := t.journal
  cwd_dir := by
    -- no directory is replaced, in particular not the working directory
    rw [Function.update_of_ne _, t.cwd_dir]
    rintro rfl
    exact h.node_ne_dir t.cwd_dir
  parent_dir := by
    intro loc' name hsome
    by_cases heq : loc' ++ [name] = loc
    · subst heq
      rw [Function.update_of_ne _, h.parent]
      exact fun hcycle => absurd (congrArg List.length hcycle) (by simp)
    · -- an old node: its parent was a directory, so it is not the place either
      rw [Function.update_of_ne heq] at hsome
      have hdir := t.parent_dir loc' name hsome
      rwa [Function.update_of_ne]
      rintro rfl
      exact h.node_ne_dir hdir

@[simp] theorem node_place_self (t : FileTree ν β) (loc : List ν) (n : Node β) (h : t.Admits loc) :
    (t.place loc n h).node loc = some n :=
  Function.update_self ..

theorem node_place_of_ne (t : FileTree ν β) {loc loc' : List ν} (n : Node β) (h : t.Admits loc)
    (hne : loc' ≠ loc) : (t.place loc n h).node loc' = t.node loc' :=
  Function.update_of_ne hne ..

/-! ## 3. Making directories -/

/-- Make one directory; without room for it, or with something there, nothing happens. -/
def mkdir (t : FileTree ν β) (loc : List ν) : FileTree ν β :=
  if h : t.Admits loc then
    if (t.node loc).isNone ∧ t.readOnly loc = false then
      (t.place loc .dir h).record (.madeDir loc)
    else t
  else t

/-- Make the directories `names` lead through, from the top. -/
def mkdirsFrom (t : FileTree ν β) (loc : List ν) : List ν → FileTree ν β
  | [] => t
  | name :: names =>
      let t' := t.mkdir (loc ++ [name])
      -- stop at what cannot be made a directory
      if t'.isDir (loc ++ [name]) then mkdirsFrom t' (loc ++ [name]) names else t'

/-- Make a directory and every missing directory on the way to it. -/
def mkdirs (t : FileTree ν β) (loc : List ν) : FileTree ν β :=
  t.mkdirsFrom [] loc

theorem mkdir_cases (t : FileTree ν β) (loc : List ν) :
    t.mkdir loc = t ∨
      ∃ h : t.Admits loc, t.node loc = none ∧ t.readOnly loc = false ∧
        t.mkdir loc = (t.place loc .dir h).record (.madeDir loc) := by
  unfold mkdir
  split
  case isTrue h =>
    split
    case isTrue hc => exact .inr ⟨h, by simpa using hc.1, hc.2, rfl⟩
    case isFalse => exact .inl rfl
  case isFalse => exact .inl rfl

@[simp] theorem cwd_mkdir (t : FileTree ν β) (loc : List ν) : (t.mkdir loc).cwd = t.cwd := by
  rcases t.mkdir_cases loc with h | ⟨h, -, -, he⟩
  · rw [h]
  · rw [he]; rfl

@[simp] theorem readOnly_mkdir (t : FileTree ν β) (loc : List ν) :
    (t.mkdir loc).readOnly = t.readOnly := by
  rcases t.mkdir_cases loc with h | ⟨h, -, -, he⟩
  · rw [h]
  · rw [he]; rfl

theorem node_mkdir_of_ne (t : FileTree ν β) {loc loc' : List ν} (hne : loc' ≠ loc) :
    (t.mkdir loc).node loc' = t.node loc' := by
  rcases t.mkdir_cases loc with h | ⟨h, -, -, he⟩
  · rw [h]
  · rw [he, node_record, node_place_of_ne _ _ _ hne]

theorem node_mkdir_of_isSome (t : FileTree ν β) {loc loc' : List ν} (hsome : (t.node loc').isSome) :
    (t.mkdir loc).node loc' = t.node loc' := by
  rcases t.mkdir_cases loc with h | ⟨h, hnone, -, he⟩
  · rw [h]
  · rw [he, node_record, node_place_of_ne]
    rintro rfl
    rw [hnone] at hsome
    cases hsome

theorem mkdir_of_admits {t : FileTree ν β} {loc : List ν} (h : t.Admits loc)
    (hnone : t.node loc = none) (hro : t.readOnly loc = false) :
    t.mkdir loc = (t.place loc .dir h).record (.madeDir loc) := by
  unfold mkdir
  rw [dif_pos h, if_pos ⟨by rw [hnone]; rfl, hro⟩]

/-- To prove a property of what `mkdirsFrom` leaves behind, follow it from the top. -/
theorem mkdirsFrom_induct {P : FileTree ν β → Prop} {t : FileTree ν β} (loc names : List ν)
    (start : P t) (step : ∀ t pre name post, names = pre ++ name :: post → P t →
      P (t.mkdir (loc ++ pre ++ [name]))) : P (t.mkdirsFrom loc names) := by
  induction names generalizing t loc with
  | nil => exact start
  | cons name names ih =>
    have hfirst : P (t.mkdir (loc ++ [name])) := by
      simpa using step t [] name names rfl start
    simp only [mkdirsFrom]
    split
    · apply ih (loc ++ [name]) hfirst
      intro t pre n post hnames ht
      have := step t (name :: pre) n post (by rw [hnames]; rfl) ht
      simpa using this
    · exact hfirst

@[simp] theorem cwd_mkdirsFrom (t : FileTree ν β) (loc names : List ν) :
    (t.mkdirsFrom loc names).cwd = t.cwd :=
  mkdirsFrom_induct (P := fun t' => t'.cwd = t.cwd) loc names rfl
    fun _ _ _ _ _ h => (cwd_mkdir ..).trans h

@[simp] theorem readOnly_mkdirsFrom (t : FileTree ν β) (loc names : List ν) :
    (t.mkdirsFrom loc names).readOnly = t.readOnly :=
  mkdirsFrom_induct (P := fun t' => t'.readOnly = t.readOnly) loc names rfl
    fun _ _ _ _ _ h => (readOnly_mkdir ..).trans h

theorem node_mkdirsFrom_of_isSome (t : FileTree ν β) (loc names : List ν) {loc' : List ν}
    (hsome : (t.node loc').isSome) : (t.mkdirsFrom loc names).node loc' = t.node loc' :=
  mkdirsFrom_induct (P := fun t' => t'.node loc' = t.node loc') loc names rfl
    fun t' _ _ _ _ h => (t'.node_mkdir_of_isSome (by rw [h]; exact hsome)).trans h

theorem node_mkdirsFrom_of_not_prefix (t : FileTree ν β) (loc names : List ν) {loc' : List ν}
    (hpre : ¬ loc' <+: loc ++ names) : (t.mkdirsFrom loc names).node loc' = t.node loc' := by
  refine mkdirsFrom_induct (P := fun t' => t'.node loc' = t.node loc') loc names rfl ?_
  intro t' pre name post hnames h
  rw [node_mkdir_of_ne, h]
  rintro rfl
  exact hpre ⟨post, by simp [hnames]⟩

theorem journal_mkdirsFrom (t : FileTree ν β) (loc names : List ν) {change : Change ν}
    (h : change ∈ (t.mkdirsFrom loc names).journal) :
    change ∈ t.journal ∨ ∃ pre, pre <+: names ∧ pre ≠ [] ∧ change = .madeDir (loc ++ pre) ∧
      t.node (loc ++ pre) = none := by
  -- the invariant adds that nothing disappears, so what is missing now was missing at first
  refine (mkdirsFrom_induct (P := fun t' => (∀ l, t'.node l = none → t.node l = none) ∧
    ∀ change ∈ t'.journal, change ∈ t.journal ∨ ∃ pre, pre <+: names ∧ pre ≠ [] ∧
      change = .madeDir (loc ++ pre) ∧ t.node (loc ++ pre) = none) loc names
    ⟨fun _ h => h, fun _ h => .inl h⟩ ?_).2 change h
  rintro t' pre name post hnames ⟨hnone, hjournal⟩
  rcases t'.mkdir_cases (loc ++ pre ++ [name]) with he | ⟨hadm, hmiss, -, he⟩
  · rw [he]
    exact ⟨hnone, hjournal⟩
  · rw [he]
    constructor
    · intro l hl
      by_cases hloc : l = loc ++ pre ++ [name]
      · subst hloc
        simp at hl
      · exact hnone l (by rwa [node_record, node_place_of_ne _ _ _ hloc] at hl)
    · intro change hmem
      rcases List.mem_append.mp hmem with hmem | hmem
      · exact hjournal change hmem
      · refine .inr ⟨pre ++ [name], ⟨post, by simp [hnames]⟩, by simp, ?_, ?_⟩
        · rw [List.mem_singleton.mp hmem, List.append_assoc]
        · rw [← List.append_assoc]
          exact hnone _ hmiss

theorem node_mkdirsFrom (t : FileTree ν β) (loc names rest : List ν) (hloc : t.node loc = some .dir)
    (hfree : ∀ pre, pre <+: names → pre ≠ [] →
      t.node (loc ++ pre) = some .dir ∨
        t.node (loc ++ pre) = none ∧ t.readOnly (loc ++ pre) = false) :
    (t.mkdirsFrom loc (names ++ rest)).node (loc ++ names) = some .dir := by
  induction names generalizing t loc with
  | nil => rw [List.append_nil, node_mkdirsFrom_of_isSome _ _ _ (by rw [hloc]; rfl), hloc]
  | cons name names ih =>
    have hname : (t.mkdir (loc ++ [name])).node (loc ++ [name]) = some .dir := by
      rcases hfree [name] ⟨names, rfl⟩ (by simp) with hdir | ⟨hnone, hro⟩
      · rw [node_mkdir_of_isSome _ (by rw [hdir]; rfl), hdir]
      · rw [mkdir_of_admits (admits_concat hloc (by rw [hnone]; simp)) hnone hro, node_record,
          node_place_self]
    -- the first directory is there now; the others are as free as they were
    simp only [List.cons_append, mkdirsFrom, (isDir_iff ..).mpr hname, if_true]
    have happ : loc ++ name :: names = loc ++ [name] ++ names := by simp
    rw [happ]
    apply ih _ _ hname
    intro pre hpre hne
    have hne' : loc ++ [name] ++ pre ≠ loc ++ [name] := by simpa using hne
    have hfree' := hfree (name :: pre) (List.cons_prefix_cons.mpr ⟨rfl, hpre⟩) (by simp)
    rw [node_mkdir_of_ne _ hne', readOnly_mkdir]
    simpa using hfree'

theorem node_mkdirs (t : FileTree ν β) (loc names rest : List ν) (hloc : t.node loc = some .dir)
    (hfree : ∀ pre, pre <+: names → pre ≠ [] →
      t.node (loc ++ pre) = some .dir ∨
        t.node (loc ++ pre) = none ∧ t.readOnly (loc ++ pre) = false) :
    (t.mkdirs (loc ++ names ++ rest)).node (loc ++ names) = some .dir := by
  have hroot : t.node [] = some .dir := by
    by_cases hne : loc = []
    · rwa [hne] at hloc
    · exact t.dir_of_append [] hne (by rw [List.nil_append, hloc]; rfl)
  apply t.node_mkdirsFrom [] (loc ++ names) rest hroot
  intro pre hpre _
  rw [List.nil_append]
  -- above `loc` everything is a directory already, below it `hfree` says so
  rcases List.prefix_or_prefix_of_prefix hpre (List.prefix_append loc names) with hle | ⟨q, rfl⟩
  · obtain ⟨q, rfl⟩ := hle
    by_cases hq : q = []
    · subst hq
      exact .inl (by simpa using hloc)
    · exact .inl (t.dir_of_append pre hq (by rw [hloc]; rfl))
  · by_cases hq : q = []
    · subst hq
      exact .inl (by simpa using hloc)
    · exact hfree q ((List.prefix_append_right_inj loc).mp hpre) hq

/-! ## 4. Making and opening files -/

/-- Make an empty file where nothing is: whether it was made, `none` being a failure. -/
def createNew (t : FileTree ν β) (loc : List ν) (empty : β) : Option (Bool × FileTree ν β) :=
  if (t.node loc).isSome then some (false, t)
  else if h : t.Admits loc then
    if t.readOnly loc then none
    else some (true, (t.place loc (.file empty) h).record (.madeFile loc))
  else none

/-- Open for writing: the file is made, or emptied; `none` is a failure. -/
def openNew (t : FileTree ν β) (loc : List ν) (empty : β) : Option (FileTree ν β) :=
  if h : t.Admits loc then
    if t.readOnly loc then none
    else some ((t.place loc (.file empty) h).record (.wrote loc))
  else none

def fill (t : FileTree ν β) (loc : List ν) (content : β) : FileTree ν β :=
  if h : t.Admits loc then (t.place loc (.file content) h).record (.wrote loc) else t

theorem createNew_cases {t t' : FileTree ν β} {loc : List ν} {empty : β} {made : Bool}
    (h : t.createNew loc empty = some (made, t')) :
    made = false ∧ t' = t ∧ (t.node loc).isSome ∨
      made = true ∧ ∃ hadm : t.Admits loc, t.node loc = none ∧ t.readOnly loc = false ∧
        t' = (t.place loc (.file empty) hadm).record (.madeFile loc) := by
  unfold createNew at h
  split at h
  case isTrue hsome =>
    cases h
    exact .inl ⟨rfl, rfl, hsome⟩
  case isFalse hsome =>
    split at h
    case isTrue hadm =>
      split at h <;> cases h
      exact .inr ⟨rfl, hadm, by simpa using hsome, Bool.eq_false_iff.mpr ‹¬ _›, rfl⟩
    case isFalse => cases h

theorem openNew_cases {t t' : FileTree ν β} {loc : List ν} {empty : β}
    (h : t.openNew loc empty = some t') :
    ∃ hadm : t.Admits loc, t.readOnly loc = false ∧
      t' = (t.place loc (.file empty) hadm).record (.wrote loc) := by
  unfold openNew at h
  split at h
  case isTrue hadm =>
    split at h <;> cases h
    exact ⟨hadm, Bool.eq_false_iff.mpr ‹¬ _›, rfl⟩
  case isFalse => cases h

theorem createNew_of_isSome {t : FileTree ν β} {loc : List ν} (h : (t.node loc).isSome)
    (empty : β) : t.createNew loc empty = some (false, t) :=
  if_pos h

theorem createNew_of_admits {t : FileTree ν β} {loc : List ν} (h : t.Admits loc)
    (hnone : t.node loc = none) (hro : t.readOnly loc = false) (empty : β) :
    t.createNew loc empty = some (true, (t.place loc (.file empty) h).record (.madeFile loc)) := by
  unfold createNew
  rw [if_neg (by rw [hnone]; exact Bool.noConfusion), dif_pos h,
    if_neg (by rw [hro]; exact Bool.noConfusion)]

theorem openNew_of_admits {t : FileTree ν β} {loc : List ν} (h : t.Admits loc)
    (hro : t.readOnly loc = false) (empty : β) :
    t.openNew loc empty = some ((t.place loc (.file empty) h).record (.wrote loc)) := by
  unfold openNew
  rw [dif_pos h, if_neg (by rw [hro]; exact Bool.noConfusion)]

theorem openNew_of_dir {t : FileTree ν β} {loc : List ν} (h : t.node loc = some .dir) (empty : β) :
    t.openNew loc empty = none :=
  dif_neg fun hadm => hadm.node_ne_dir h

theorem fill_of_admits {t : FileTree ν β} {loc : List ν} (h : t.Admits loc) (content : β) :
    t.fill loc content = (t.place loc (.file content) h).record (.wrote loc) :=
  dif_pos h

/-! ## 5. The journal is complete -/

/-- Everything that is not as it was in `t₀` is in the journal. -/
def Accounted (t₀ t : FileTree ν β) : Prop :=
  ∀ loc, t.node loc = t₀.node loc ∨ ∃ change ∈ t.journal, change.loc = loc

theorem Accounted.place {t₀ t : FileTree ν β} (h : Accounted t₀ t) {loc : List ν} {n : Node β}
    (hadm : t.Admits loc) {change : Change ν} (hloc : change.loc = loc) :
    Accounted t₀ ((t.place loc n hadm).record change) := by
  intro loc'
  by_cases heq : loc' = loc
  · exact .inr ⟨change, by simp, hloc.trans heq.symm⟩
  · rw [node_record, node_place_of_ne _ _ _ heq]
    refine (h loc').imp_right ?_
    rintro ⟨c, hc, hcl⟩
    exact ⟨c, List.mem_append_left _ hc, hcl⟩

theorem Accounted.mkdir {t₀ t : FileTree ν β} (h : Accounted t₀ t) (loc : List ν) :
    Accounted t₀ (t.mkdir loc) := by
  rcases t.mkdir_cases loc with he | ⟨hadm, -, -, he⟩
  · rwa [he]
  · rw [he]
    exact h.place hadm rfl

theorem Accounted.mkdirs {t₀ t : FileTree ν β} (h : Accounted t₀ t) (loc : List ν) :
    Accounted t₀ (t.mkdirs loc) :=
  mkdirsFrom_induct [] loc h fun _ _ _ _ _ ht => ht.mkdir _

theorem Accounted.createNew {t₀ t t' : FileTree ν β} (h : Accounted t₀ t) {loc : List ν} {empty : β}
    {made : Bool} (hnew : t.createNew loc empty = some (made, t')) : Accounted t₀ t' := by
  rcases createNew_cases hnew with ⟨-, rfl, -⟩ | ⟨-, hadm, -, -, rfl⟩
  · exact h
  · exact h.place hadm rfl

theorem Accounted.openNew {t₀ t t' : FileTree ν β} (h : Accounted t₀ t) {loc : List ν} {empty : β}
    (hopen : t.openNew loc empty = some t') : Accounted t₀ t' := by
  obtain ⟨hadm, -, rfl⟩ := openNew_cases hopen
  exact h.place hadm rfl

theorem Accounted.fill {t₀ t : FileTree ν β} (h : Accounted t₀ t) (loc : List ν) (content : β) :
    Accounted t₀ (t.fill loc content) := by
  unfold FileTree.fill
  split
  case isTrue hadm => exact h.place hadm rfl
  case isFalse => exact h

/-! ## 6. Several writers -/

omit [DecidableEq ν] in
theorem admits_of_file {t : FileTree ν β} {loc : List ν} {content : β}
    (h : t.node loc = some (.file content)) : t.Admits loc := by
  have hne : loc ≠ [] := by
    rintro rfl
    have hroot : t.node [] = some .dir := by
      by_cases hcwd : t.cwd = []
      · rw [← hcwd, t.cwd_dir]
      · exact t.dir_of_append [] hcwd (by rw [List.nil_append, t.cwd_dir]; rfl)
    rw [h] at hroot
    cases hroot
  rw [← List.dropLast_concat_getLast hne] at h ⊢
  exact admits_concat (t.parent_dir _ _ (by rw [h]; rfl)) (by rw [h]; simp)

/-- What someone does who makes directories where nothing is, and else writes at `loc` only. -/
structure WritesAt (loc : List ν) (t t' : FileTree ν β) : Prop where
  cwd : t'.cwd = t.cwd
  readOnly : t'.readOnly = t.readOnly
  node : ∀ l, t'.node l = t.node l ∨ t.node l = none ∧ t'.node l = some .dir ∨
    l = loc ∧ t.node l ≠ some .dir

/-- Directories stay, and so does the file at `loc`. -/
structure Keeps (loc : List ν) (t t' : FileTree ν β) : Prop where
  cwd : t'.cwd = t.cwd
  dir : ∀ l, t.node l = some .dir → t'.node l = some .dir
  file : ∀ content, t.node loc = some (.file content) → t'.node loc = some (.file content)

omit [DecidableEq ν]

theorem Keeps.refl (loc : List ν) (t : FileTree ν β) : Keeps loc t t :=
  ⟨rfl, fun _ h => h, fun _ h => h⟩

theorem Keeps.trans {loc : List ν} {t t' t'' : FileTree ν β} (h : Keeps loc t t')
    (h' : Keeps loc t' t'') : Keeps loc t t'' where
  cwd := h'.cwd.trans h.cwd
  dir l hl := h'.dir l (h.dir l hl)
  file content hc := h'.file content (h.file content hc)

/-- A walk that has been possible stays possible. -/
theorem Keeps.walk {loc : List ν} {t t' : FileTree ν β} (h : Keeps loc t t')
    {start stop : List ν} {steps : List (Step ν)} (hwalk : t.walk start steps = some stop) :
    t'.walk start steps = some stop := by
  induction steps generalizing start with
  | nil => exact hwalk
  | cons step steps ih =>
    simp only [FileTree.walk] at hwalk ⊢
    split at hwalk
    case isTrue hdir =>
      rw [if_pos ((isDir_iff ..).mpr (h.dir _ ((isDir_iff ..).mp hdir)))]
      cases step <;> exact ih hwalk
    case isFalse => cases hwalk

theorem WritesAt.refl (loc : List ν) (t : FileTree ν β) : WritesAt loc t t :=
  ⟨rfl, rfl, fun _ => .inl rfl⟩

theorem WritesAt.trans {loc : List ν} {t t' t'' : FileTree ν β} (h : WritesAt loc t t')
    (h' : WritesAt loc t' t'') : WritesAt loc t t'' where
  cwd := h'.cwd.trans h.cwd
  readOnly := h'.readOnly.trans h.readOnly
  node l := by
    rcases h.node l with heq | ⟨hnone, hdir⟩ | hloc
    · rw [← heq]
      exact h'.node l
    · -- the directory made in between stays one
      rcases h'.node l with heq | ⟨hnone', -⟩ | ⟨-, hndir⟩
      · exact .inr (.inl ⟨hnone, heq.trans hdir⟩)
      · rw [hdir] at hnone'
        cases hnone'
      · exact absurd hdir hndir
    · exact .inr (.inr hloc)

/-- Writers at other locations are the ones `Keeps` allows for. -/
theorem WritesAt.keeps {loc loc' : List ν} {t t' : FileTree ν β} (h : WritesAt loc t t')
    (hne : loc ≠ loc') : Keeps loc' t t' where
  cwd := h.cwd
  dir l hl := by
    rcases h.node l with heq | ⟨hnone, -⟩ | ⟨-, hndir⟩
    · rw [heq, hl]
    · rw [hnone] at hl
      cases hl
    · exact absurd hl hndir
  file content hc := by
    rcases h.node loc' with heq | ⟨hnone, -⟩ | ⟨heq, -⟩
    · rw [heq, hc]
    · rw [hnone] at hc
      cases hc
    · exact absurd heq.symm hne

variable [DecidableEq ν]

theorem writesAt_place {t : FileTree ν β} {loc : List ν} (n : Node β) (hadm : t.Admits loc)
    (change : Change ν) : WritesAt loc t ((t.place loc n hadm).record change) where
  cwd := rfl
  readOnly := rfl
  node l := by
    by_cases hl : l = loc
    · subst hl
      exact .inr (.inr ⟨rfl, hadm.node_ne_dir⟩)
    · exact .inl (by rw [node_record, node_place_of_ne _ _ _ hl])

theorem writesAt_mkdir (t : FileTree ν β) (loc made : List ν) : WritesAt loc t (t.mkdir made) where
  cwd := cwd_mkdir ..
  readOnly := readOnly_mkdir ..
  node l := by
    rcases t.mkdir_cases made with he | ⟨hadm, hnone, -, he⟩
    · exact .inl (by rw [he])
    · by_cases hl : l = made
      · subst hl
        exact .inr (.inl ⟨hnone, by rw [he, node_record, node_place_self]⟩)
      · exact .inl (node_mkdir_of_ne t hl)

theorem writesAt_createNew {t t' : FileTree ν β} {loc : List ν} {empty : β} {made : Bool}
    (h : t.createNew loc empty = some (made, t')) : WritesAt loc t t' := by
  rcases createNew_cases h with ⟨-, rfl, -⟩ | ⟨-, hadm, -, -, rfl⟩
  · exact WritesAt.refl ..
  · exact writesAt_place _ hadm _

theorem writesAt_openNew {t t' : FileTree ν β} {loc : List ν} {empty : β}
    (h : t.openNew loc empty = some t') : WritesAt loc t t' := by
  obtain ⟨hadm, -, rfl⟩ := openNew_cases h
  exact writesAt_place _ hadm _

theorem writesAt_fill (t : FileTree ν β) (loc : List ν) (content : β) :
    WritesAt loc t (t.fill loc content) := by
  unfold FileTree.fill
  split
  case isTrue hadm => exact writesAt_place _ hadm _
  case isFalse => exact WritesAt.refl ..

/-! ## 7. What the files hold -/

theorem writesAt_mkdirs (t : FileTree ν β) (loc made : List ν) : WritesAt loc t (t.mkdirs made) :=
  mkdirsFrom_induct (P := fun t' => WritesAt loc t t') [] made (WritesAt.refl ..)
    fun _ _ _ _ _ h => h.trans (writesAt_mkdir ..)

omit [DecidableEq ν] in
theorem WritesAt.content_of_ne {t t' : FileTree ν β} {loc l : List ν} (h : WritesAt loc t t')
    (hne : l ≠ loc) : t'.content l = t.content l := by
  rcases h.node l with heq | ⟨hnone, hdir⟩ | ⟨heq, -⟩
  · rw [content, heq, content]
  · -- where a directory is now, nothing was before
    rw [content_eq_none.mpr (.inr hdir), content_eq_none.mpr (.inl hnone)]
  · exact absurd heq hne

/-- A writer who leaves a file has replaced the content of that file. -/
theorem WritesAt.content {t t' : FileTree ν β} {loc : List ν} {bytes : β} (h : WritesAt loc t t')
    (hfile : t'.node loc = some (.file bytes)) :
    t'.content = Function.update t.content loc (some bytes) := by
  funext l
  by_cases hl : l = loc
  · subst hl
    rw [Function.update_self, content_eq_some.mpr hfile]
  · rw [Function.update_of_ne hl, h.content_of_ne hl]

end FileTree
