import Mathlib

/-!
# The red-black trees of the BTREE indexes

An index of a HEAP table is a red-black tree of `mysys/tree.c`. Its elements have no pointer
to their parent: an operation that goes down keeps the way in an array of parents and
rebalances the tree along it. The way is a list of frames here, the deepest one first. The
two branches of the source that are mirror images are one with the side as a parameter.
-/
namespace MariaDB.Heap

inductive Side
  | left
  | right
  deriving DecidableEq, Repr

def Side.other : Side → Side
  | left => right
  | right => left

inductive Colour
  | red
  | black
  deriving DecidableEq, Repr

/-- An element of a tree: its address, its key and the row the key belongs to. -/
structure Element (κ : Type) where
  addr : Nat
  key : κ
  row : Nat
  deriving DecidableEq, Repr

inductive Tree (κ : Type)
  | nil
  | node (colour : Colour) (left : Tree κ) (elem : Element κ) (right : Tree κ)
  deriving DecidableEq, Repr

namespace Tree

variable {κ : Type}

def colour : Tree κ → Colour
  | nil => .black
  | node c _ _ _ => c

def blacken : Tree κ → Tree κ
  | nil => nil
  | node _ l e r => node .black l e r

def child : Side → Tree κ → Tree κ
  | _, nil => nil
  | .left, node _ l _ _ => l
  | .right, node _ _ _ r => r

def mk (s : Side) (c : Colour) (near : Tree κ) (e : Element κ) (far : Tree κ) : Tree κ :=
  match s with
  | .left => node c near e far
  | .right => node c far e near

def inorder : Tree κ → List (Element κ)
  | nil => []
  | node _ l e r => l.inorder ++ e :: r.inorder

def walk : Side → Tree κ → List (Element κ)
  | .left, t => t.inorder
  | .right, t => t.inorder.reverse

end Tree

/-- A step of the way down: the side that was taken, the element and its other subtree. -/
structure Frame (κ : Type) where
  side : Side
  colour : Colour
  elem : Element κ
  sibling : Tree κ

variable {κ : Type}

def Frame.fill (f : Frame κ) (t : Tree κ) : Tree κ := Tree.mk f.side f.colour t f.elem f.sibling

def plug (t : Tree κ) : List (Frame κ) → Tree κ
  | [] => t
  | f :: rest => plug (f.fill t) rest

/-- The way down to the element that `cmp` finds, or to where it would be; `cmp` compares the
key of an element with the one that is looked for. -/
def descend (cmp : κ → Ordering) : Tree κ → List (Frame κ) → Tree κ × List (Frame κ)
  | .nil, way => (.nil, way)
  | .node c l e r, way =>
    match cmp e.key with
    | .eq => (.node c l e r, way)
    | .lt => descend cmp r (⟨.right, c, e, l⟩ :: way)
    | .gt => descend cmp l (⟨.left, c, e, r⟩ :: way)

/-- `rb_insert()`: the loop, with the red `leaf` at the end of the way. The root is black, so
a red parent has a parent. -/
def rbInsert (leaf : Tree κ) : List (Frame κ) → Tree κ
  | par :: par2 :: rest =>
    if par.colour = .red then
      let s := par2.side
      if par2.sibling.colour = .red then
        rbInsert (Tree.mk s .red ({ par with colour := .black }.fill leaf) par2.elem
          par2.sibling.blacken) rest
      else if par.side = s then
        plug (Tree.mk s .black leaf par.elem
          (Tree.mk s .red par.sibling par2.elem par2.sibling)) rest
      else
        match leaf with
        | .nil => plug leaf (par :: par2 :: rest)
        | .node _ _ e _ =>
          plug (Tree.mk s .black (Tree.mk s par.colour par.sibling par.elem (leaf.child s)) e
            (Tree.mk s .red (leaf.child s.other) par2.elem par2.sibling)) rest
    else plug leaf (par :: par2 :: rest)
  | way => plug leaf way

/-- `tree_insert()`: `none` is a duplicate that `TREE_NO_DUPS` refuses. -/
def treeInsert (noDups : Bool) (cmp : κ → Ordering) (e : Element κ) (t : Tree κ) :
    Option (Tree κ) :=
  match descend cmp t [] with
  | (.nil, way) => some (rbInsert (.node .red .nil e .nil) way).blacken
  | (.node _ _ _ _, _) => if noDups then none else some t

/-- What `rb_delete_fixup()` does below a black sibling: the loop ends, or goes on with the
parent. -/
inductive Fixed (κ : Type)
  | done (t : Tree κ)
  | up (t : Tree κ)

/-- A pass of the loop of `rb_delete_fixup()` when the sibling of `x` is black. -/
def fixBlackSibling (x : Tree κ) (par : Frame κ) : Fixed κ :=
  let s := par.side
  match par.sibling with
  | .nil => .done (par.fill x)
  | .node c l e r =>
    let near := Tree.child s (.node c l e r)
    let far := Tree.child s.other (.node c l e r)
    if near.colour = .black ∧ far.colour = .black then
      .up (Tree.mk s par.colour x par.elem (Tree.mk s .red near e far))
    else if far.colour = .black then
      match near with
      | .nil => .done (par.fill x)
      | .node c' l' e' r' =>
        let near' := Tree.child s (.node c' l' e' r')
        let far' := Tree.child s.other (.node c' l' e' r')
        .done (Tree.mk s par.colour (Tree.mk s .black x par.elem near') e'
          (Tree.mk s .black far' e far))
    else .done (Tree.mk s par.colour (Tree.mk s .black x par.elem near) e far.blacken)

def rbDeleteFixup (x : Tree κ) : List (Frame κ) → Tree κ
  | [] => x.blacken
  | par :: rest =>
    if x.colour = .red then plug x.blacken (par :: rest)
    else
      let s := par.side
      match par.sibling with
      | .nil => plug x (par :: rest)
      | .node .red l e r =>
        let sibling := Tree.node .red l e r
        let par' : Frame κ := { par with colour := .red, sibling := sibling.child s }
        let top : Frame κ := ⟨s, .black, e, sibling.child s.other⟩
        match fixBlackSibling x par' with
        | .done t => (plug t (top :: rest)).blacken
        -- the parent is red now, so the loop ends with it
        | .up t => plug t.blacken (top :: rest)
      | .node .black l e r =>
        match fixBlackSibling x { par with sibling := .node .black l e r } with
        | .done t => (plug t rest).blacken
        | .up t => rbDeleteFixup t rest

/-- The way to the first element of a subtree; `none` for the null element. -/
def descendMin : Tree κ → List (Frame κ) → Option (Colour × Element κ × Tree κ × List (Frame κ))
  | .nil, _ => none
  | .node c .nil e r, way => some (c, e, r, way)
  | .node c (.node c' l' e' r') e r, way =>
    descendMin (.node c' l' e' r') (⟨.left, c, e, r⟩ :: way)

/-- The end of `tree_delete()`: an element of the given colour has been unlinked. -/
def unlink (removeColour : Colour) (x : Tree κ) (way : List (Frame κ)) : Tree κ :=
  if removeColour = .black then rbDeleteFixup x way else plug x way

/-- `tree_delete()`; `none` if the key is not in the tree. -/
def treeDelete (cmp : κ → Ordering) (t : Tree κ) : Option (Tree κ) :=
  match descend cmp t [] with
  | (.nil, _) => none
  | (.node c .nil _ r, way) => some (unlink c r way)
  | (.node c l _ .nil, way) => some (unlink c l way)
  | (.node c l _ r, way) =>
    -- the next element takes the place and the colour of the deleted one
    (descendMin r []).map fun (c', e', x, below) =>
      unlink c' x (below ++ ⟨.right, c, e', l⟩ :: way)

section Inorder

lemma inorder_mk (s : Side) (c : Colour) (near far : Tree κ) (e : Element κ) :
    (Tree.mk s c near e far).inorder =
      match s with
      | .left => near.inorder ++ e :: far.inorder
      | .right => far.inorder ++ e :: near.inorder := by
  cases s <;> rfl

@[simp] lemma inorder_blacken (t : Tree κ) : t.blacken.inorder = t.inorder := by
  cases t <;> rfl

def before : List (Frame κ) → List (Element κ)
  | [] => []
  | f :: rest =>
    match f.side with
    | .left => before rest
    | .right => before rest ++ f.sibling.inorder ++ [f.elem]

def after : List (Frame κ) → List (Element κ)
  | [] => []
  | f :: rest =>
    match f.side with
    | .left => f.elem :: f.sibling.inorder ++ after rest
    | .right => after rest

attribute [local simp] Tree.inorder Frame.fill inorder_mk Tree.child Side.other before after plug

lemma inorder_plug : ∀ (way : List (Frame κ)) (t : Tree κ),
    (plug t way).inorder = before way ++ t.inorder ++ after way := by
  intro way
  induction way with
  | nil => intro t; simp
  | cons f rest ih =>
    intro t
    rw [plug, ih, Frame.fill, inorder_mk, before, after]
    cases f.side <;> simp

variable {t t' : Tree κ}

lemma inorder_plug_congr (h : t.inorder = t'.inorder)
    (way : List (Frame κ)) : (plug t way).inorder = (plug t' way).inorder := by
  rw [inorder_plug, inorder_plug, h]

lemma inorder_rbInsert : ∀ (way : List (Frame κ)) (leaf : Tree κ),
    (rbInsert leaf way).inorder = (plug leaf way).inorder
  | [], leaf => rfl
  | [par], leaf => rfl
  | par :: par2 :: rest, leaf => by
    rw [rbInsert]
    dsimp only
    split_ifs with hred hsib hside
    · rw [inorder_rbInsert rest, plug, plug]
      refine inorder_plug_congr ?_ rest
      simp
    · rw [plug, plug]
      refine inorder_plug_congr ?_ rest
      simp only [Frame.fill, inorder_mk, hside]
      cases par2.side <;> simp
    · cases leaf with
      | nil => rfl
      | node c l e r =>
        rw [plug, plug]
        refine inorder_plug_congr ?_ rest
        simp only [Frame.fill, inorder_mk]
        cases hp : par.side <;> cases hp2 : par2.side <;>
          simp_all
    · rfl

lemma descend_plug (cmp : κ → Ordering) : ∀ (t : Tree κ) (way : List (Frame κ)),
    plug (descend cmp t way).1 (descend cmp t way).2 = plug t way := by
  intro t
  induction t with
  | nil => exact fun way => rfl
  | node c l e r ihl ihr =>
    intro way
    rw [descend]
    cases cmp e.key with
    | eq => rfl
    | lt => exact (ihr _).trans rfl
    | gt => exact (ihl _).trans rfl

variable {cmp : κ → Ordering}

lemma inorder_treeInsert {noDups : Bool} {e : Element κ}
    (h : treeInsert noDups cmp e t = some t') :
    t' = t ∨ ∃ xs ys, t.inorder = xs ++ ys ∧ t'.inorder = xs ++ e :: ys := by
  have hplug := descend_plug cmp t []
  unfold treeInsert at h
  split at h
  · rename_i way hd
    rw [hd] at hplug
    cases h
    refine .inr ⟨before way, after way, ?_, ?_⟩
    · rw [show t = plug .nil way from hplug.symm, inorder_plug]
      simp
    · rw [inorder_blacken, inorder_rbInsert, inorder_plug]
      simp
  · split_ifs at h
    exact .inl (Option.some.inj h).symm

def Fixed.tree : Fixed κ → Tree κ
  | .done t => t
  | .up t => t

lemma inorder_fixBlackSibling (x : Tree κ) (par : Frame κ) :
    (fixBlackSibling x par).tree.inorder = (par.fill x).inorder := by
  unfold fixBlackSibling
  obtain ⟨s, c, e, sibling⟩ := par
  cases sibling with
  | nil => rfl
  | node c₁ l₁ e₁ r₁ =>
    dsimp only
    split_ifs with hboth hfar
    · cases s <;> simp [Fixed.tree]
    · cases s with
      | left =>
        cases l₁ <;>
          simp [Fixed.tree]
      | right =>
        cases r₁ <;>
          simp [Fixed.tree]
    · cases s <;> simp [Fixed.tree]

lemma inorder_rbDeleteFixup : ∀ (way : List (Frame κ)) (x : Tree κ),
    (rbDeleteFixup x way).inorder = (plug x way).inorder := by
  intro way
  induction way with
  | nil => intro x; simp [rbDeleteFixup]
  | cons par rest ih =>
    intro x
    obtain ⟨s, c, e, sibling⟩ := par
    rw [rbDeleteFixup]
    split_ifs with hred
    · exact inorder_plug_congr (inorder_blacken x) _
    · cases sibling with
      | nil => rfl
      | node c₁ l₁ e₁ r₁ =>
        cases c₁ with
        | red =>
          dsimp only
          have hfix := inorder_fixBlackSibling x ⟨s, .red, e, Tree.child s (.node .red l₁ e₁ r₁)⟩
          have hfill : ∀ t : Tree κ, t.inorder =
              (Frame.fill ⟨s, .red, e, Tree.child s (.node .red l₁ e₁ r₁)⟩ x).inorder →
              (Frame.fill ⟨s, .black, e₁, Tree.child s.other (.node .red l₁ e₁ r₁)⟩ t).inorder =
                (Frame.fill ⟨s, c, e, .node .red l₁ e₁ r₁⟩ x).inorder := by
            intro t ht
            cases s <;>
              simp_all
          cases hf : fixBlackSibling x ⟨s, .red, e, Tree.child s (.node .red l₁ e₁ r₁)⟩ with
          | done t =>
            rw [hf] at hfix
            rw [inorder_blacken]
            exact inorder_plug_congr (hfill t hfix) rest
          | up t =>
            rw [hf] at hfix
            exact inorder_plug_congr (hfill t.blacken ((inorder_blacken t).trans hfix)) rest
        | black =>
          dsimp only
          have hfix := inorder_fixBlackSibling x ⟨s, c, e, .node .black l₁ e₁ r₁⟩
          cases hf : fixBlackSibling x ⟨s, c, e, .node .black l₁ e₁ r₁⟩ with
          | done t =>
            rw [hf] at hfix
            rw [inorder_blacken]
            exact inorder_plug_congr hfix rest
          | up t =>
            rw [hf] at hfix
            rw [ih]
            exact inorder_plug_congr hfix rest

lemma inorder_unlink (c : Colour) (x : Tree κ) (way : List (Frame κ)) :
    (unlink c x way).inorder = before way ++ x.inorder ++ after way := by
  unfold unlink
  split_ifs
  · rw [inorder_rbDeleteFixup, inorder_plug]
  · rw [inorder_plug]

lemma descendMin_plug : ∀ (t : Tree κ) (way : List (Frame κ)) {c : Colour} {e : Element κ}
    {x : Tree κ} {below : List (Frame κ)}, descendMin t way = some (c, e, x, below) →
    plug (.node c .nil e x) below = plug t way
  | .nil, way, c, e, x, below, h => by simp [descendMin] at h
  | .node c .nil e r, way, c', e', x, below, h => by
    simp only [descendMin, Option.some.injEq, Prod.mk.injEq] at h
    obtain ⟨rfl, rfl, rfl, rfl⟩ := h
    rfl
  | .node c (.node c₁ l₁ e₁ r₁) e r, way, c', e', x, below, h => by
    rw [descendMin] at h
    rw [descendMin_plug _ _ h]
    rfl

variable (a b : List (Frame κ))

lemma before_append : before (a ++ b) = before b ++ before a := by
  induction a with
  | nil => simp
  | cons f rest ih =>
    rw [List.cons_append, before, before, ih]
    cases f.side <;> simp

lemma after_append : after (a ++ b) = after a ++ after b := by
  induction a with
  | nil => simp
  | cons f rest ih =>
    rw [List.cons_append, after, after, ih]
    cases f.side <;> simp

/-- Nothing is before the first element of a subtree. -/
lemma before_descendMin : ∀ (t : Tree κ) (way : List (Frame κ)) {c : Colour} {e : Element κ}
    {x : Tree κ} {below : List (Frame κ)}, descendMin t way = some (c, e, x, below) →
    before below = before way
  | .nil, way, c, e, x, below, h => by simp [descendMin] at h
  | .node c .nil e r, way, c', e', x, below, h => by
    simp only [descendMin, Option.some.injEq, Prod.mk.injEq] at h
    rw [h.2.2.2]
  | .node c (.node c₁ l₁ e₁ r₁) e r, way, c', e', x, below, h => by
    rw [descendMin] at h
    exact (before_descendMin _ (⟨.left, c, e, r⟩ :: way) h).trans rfl

/-- A deletion removes one element and keeps the order of the others. -/
lemma inorder_treeDelete (h : treeDelete cmp t = some t') :
    ∃ xs e ys, t.inorder = xs ++ e :: ys ∧ t'.inorder = xs ++ ys := by
  have hplug := descend_plug cmp t []
  unfold treeDelete at h
  split at h
  · simp at h
  · rename_i c e r way hd
    rw [hd] at hplug
    cases h
    refine ⟨before way, e, r.inorder ++ after way, ?_, ?_⟩
    · rw [show t = plug (.node c .nil e r) way from hplug.symm, inorder_plug]
      simp
    · simp [inorder_unlink]
  · rename_i c l e way hd hl
    rw [hl] at hplug
    cases h
    refine ⟨before way ++ l.inorder, e, after way, ?_, ?_⟩
    · rw [show t = plug (.node c l e .nil) way from hplug.symm, inorder_plug]
      simp
    · simp [inorder_unlink]
  · rename_i c l e r way hd hl hr
    rw [hr] at hplug
    obtain ⟨⟨c', e', x, below⟩, hmin, rfl⟩ := Option.map_eq_some_iff.mp h
    have hr' : r.inorder = e' :: x.inorder ++ after below := by
      have := congrArg Tree.inorder (descendMin_plug r [] hmin)
      rw [inorder_plug, before_descendMin r [] hmin] at this
      simpa using this.symm
    refine ⟨before way ++ l.inorder, e, e' :: x.inorder ++ after below ++ after way, ?_, ?_⟩
    · rw [show t = plug (.node c l e r) way from hplug.symm, inorder_plug, Tree.inorder, hr']
      simp
    · dsimp only
      rw [inorder_unlink, before_append, after_append, before_descendMin r [] hmin]
      simp

end Inorder

end MariaDB.Heap
