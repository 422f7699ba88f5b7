import MariaDB.Heap.Tree

/-!
# Searches that remember their way

`tree_search_key()` and `tree_search_edge()` write the addresses of the elements they visit
to an array of the caller and leave a pointer to the one they found. `tree_search_next()`
goes on from there: the elements above the current one are read from the array, those below
it from the tree. It finds the next element if the array still is the way from the root of
the tree to the current element.
-/
namespace MariaDB.Heap

open Heap.Tree List Option

variable {κ : Type}

/-- `info->parents` behind its first entry, the null element, and `info->last_pos`: the
number of entries up to the current element. -/
structure Cursor where
  parents : List Nat
  lastPos : Option Nat
  deriving DecidableEq, Repr

def Cursor.write (cursor : Cursor) (way : List Nat) : List Nat :=
  way ++ cursor.parents.drop way.length

def Cursor.path (cursor : Cursor) (pos : Nat) : List Nat := cursor.parents.take pos

namespace Tree

def at? (a : Nat) : Tree κ → Option (Tree κ)
  | nil => none
  | node c l e r => if e.addr = a then some (node c l e r) else (l.at? a).or (r.at? a)

def elem? : Tree κ → Option (Element κ)
  | nil => none
  | node _ _ e _ => some e

/-- `ELEMENT_CHILD`: the address of a child, if it is not the null element. -/
def childAddr (t : Tree κ) (s : Side) (a : Nat) : Option Nat :=
  (t.at? a).bind fun u => (u.child s).elem?.map (·.addr)

def element (t : Tree κ) (a : Nat) : Option (Element κ) := (t.at? a).bind elem?

def addrs (t : Tree κ) : List Nat := t.inorder.map (·.addr)

end Tree

/-- The flags of `heap_rkey()`; `other` are those that `tree_search_key()` does not know. -/
inductive RkeyFunction
  | keyExact
  | keyOrNext
  | keyOrPrev
  | afterKey
  | beforeKey
  | prefixLast
  | prefixLastOrPrev
  | other
  deriving DecidableEq, Repr

/-- The candidates for the current element: where the search last went to the left or to the
right, and the last equal element. -/
structure Candidates where
  lastLeftStep : Option Nat
  lastRightStep : Option Nat
  lastEqual : Option Nat

/-- The loop of `tree_search_key()`: the way and, unless the flag is unknown, the
candidates. -/
def searchLoop (flag : RkeyFunction) (cmp : κ → Ordering) :
    Tree κ → List Nat → Candidates → List Nat × Option Candidates
  | .nil, way, cand => (way, some cand)
  | .node _ l e r, way, cand =>
    let way := way ++ [e.addr]
    let here := some way.length
    match cmp e.key with
    | .lt => searchLoop flag cmp r way { cand with lastRightStep := here }
    | .gt => searchLoop flag cmp l way { cand with lastLeftStep := here }
    | .eq =>
      match flag with
      | .keyExact | .keyOrNext | .beforeKey | .keyOrPrev =>
        searchLoop flag cmp l way { cand with lastEqual := here, lastLeftStep := here }
      | .afterKey => searchLoop flag cmp r way { cand with lastRightStep := here }
      | .prefixLast | .prefixLastOrPrev =>
        searchLoop flag cmp r way { cand with lastEqual := here, lastRightStep := here }
      | .other => (way, none)

/-- The choice among the candidates; the outer `none` is an unknown flag. -/
def Candidates.choose (cand : Candidates) : RkeyFunction → Option (Option Nat)
  | .keyExact | .prefixLast => some cand.lastEqual
  | .keyOrNext => some (cand.lastEqual.or cand.lastLeftStep)
  | .afterKey => some cand.lastLeftStep
  | .prefixLastOrPrev | .keyOrPrev => some (cand.lastEqual.or cand.lastRightStep)
  | .beforeKey => some cand.lastRightStep
  | .other => none

/-- `tree_search_key()`: the element and the cursor. With an unknown flag `last_pos` stays as
it is although the array has been written. -/
def treeSearchKey (t : Tree κ) (flag : RkeyFunction) (cmp : κ → Ordering) (cursor : Cursor) :
    Option (Element κ) × Cursor :=
  let (way, cand) := searchLoop flag cmp t [] ⟨none, none, none⟩
  let parents := cursor.write way
  match cand.bind (·.choose flag) with
  | none => (none, { cursor with parents })
  | some none => (none, ⟨parents, none⟩)
  | some (some pos) => ((parents[pos - 1]?).bind t.element, ⟨parents, some pos⟩)

def edgeWay (s : Side) : Tree κ → List Nat
  | .nil => []
  | .node _ l e r =>
    e.addr :: match s with
      | .left => edgeWay s l
      | .right => edgeWay s r

def treeSearchEdge (t : Tree κ) (s : Side) (cursor : Cursor) : Option (Element κ) × Cursor :=
  let way := edgeWay s t
  ((way.getLast?).bind t.element, ⟨cursor.write way, some way.length⟩)

/-- Down on side `near` from the last entry of the way, which is given backwards. -/
def nextDown (t : Tree κ) (near : Side) : Nat → List Nat → List Nat
  | 0, way => way
  | _, [] => []
  | fuel + 1, x :: ups =>
    match t.childAddr near x with
    | some y => nextDown t near fuel (y :: x :: ups)
    | none => x :: ups

def nextUp (t : Tree κ) (far : Side) (x : Nat) : List Nat → List Nat
  | [] => []
  | y :: ups => if t.childAddr far y = some x then nextUp t far y ups else y :: ups

/-- The way that `tree_search_next()` leaves, backwards; it is empty at the null element. -/
def nextWay (t : Tree κ) (near : Side) : List Nat → List Nat
  | [] => []
  | x :: ups =>
    match t.childAddr near.other x with
    | some y => nextDown t near t.inorder.length (y :: x :: ups)
    | none => nextUp t near.other x ups

def treeSearchNext (t : Tree κ) (near : Side) (cursor : Cursor) (pos : Nat) :
    Option (Element κ) × Cursor :=
  let way := nextWay t near (cursor.path pos).reverse
  (way.head?.bind t.element, ⟨cursor.write way.reverse, some way.length⟩)

def PathTo (t : Tree κ) (path : List Nat) (e : Element κ) : Prop :=
  ∃ c l r way, plug (.node c l e r) way = t ∧ path = (way.map (·.elem.addr)).reverse ++ [e.addr]

section Memory

variable {a : Nat} {t : Tree κ}

lemma mem_addrs_of_at? : ∀ {t u : Tree κ}, t.at? a = some u → a ∈ t.addrs := by
  intro t
  induction t with
  | nil => intro u h; simp [at?] at h
  | node c l e r ihl ihr =>
    intro u h
    rw [at?] at h
    simp only [addrs, inorder, map_append, map_cons, mem_append, mem_cons]
    split_ifs at h with he
    · exact .inr (.inl he.symm)
    · rcases or_eq_some_iff.mp h with h | ⟨-, h⟩
      · exact .inl (ihl h)
      · exact .inr (.inr (ihr h))

lemma at?_eq_none (h : a ∉ t.addrs) : t.at? a = none := by
  cases hat : t.at? a with
  | none => rfl
  | some u => exact absurd (mem_addrs_of_at? hat) h

lemma addrs_mk (s : Side) (c : Colour) (near far : Tree κ) (e : Element κ) :
    (mk s c near e far).addrs.Perm (e.addr :: (near.addrs ++ far.addrs)) := by
  grind [addrs, inorder_mk]

lemma addrs_plug (way : List (Frame κ)) (t : Tree κ) :
    (plug t way).addrs = (before way).map (·.addr) ++ t.addrs ++ (after way).map (·.addr) := by
  simp [addrs, inorder_plug]

lemma nodup_of_plug {way : List (Frame κ)} (h : (plug t way).addrs.Nodup) : t.addrs.Nodup := by
  rw [addrs_plug] at h
  exact (nodup_append.mp (nodup_append.mp h).1).2.1

lemma at?_plug : ∀ (way : List (Frame κ)) (t : Tree κ), (plug t way).addrs.Nodup →
    a ∈ t.addrs → (plug t way).at? a = t.at? a := by
  intro way
  induction way with
  | nil => exact fun t _ _ => rfl
  | cons f rest ih =>
    intro t hnodup ha
    have hperm := addrs_mk f.side f.colour t f.sibling f.elem
    have hfill := hperm.nodup_iff.mp (nodup_of_plug hnodup)
    obtain ⟨hne, hsib⟩ := nodup_cons.mp hfill
    have hnotSib : a ∉ f.sibling.addrs := fun h => (nodup_append.mp hsib).2.2 a ha a h rfl
    have hneElem : ¬ f.elem.addr = a := fun h => hne (h ▸ mem_append_left _ ha)
    rw [plug, ih _ hnodup (hperm.mem_iff.mpr (by simp [ha]))]
    unfold Frame.fill mk
    cases f.side with
    | left => rw [at?, if_neg hneElem, at?_eq_none hnotSib, or_none]
    | right => rw [at?, if_neg hneElem, at?_eq_none hnotSib, none_or]

variable {way : List (Frame κ)} {c : Colour} {l r : Tree κ} {e : Element κ} {path : List Nat}

lemma childAddr_plug (hnodup : (plug (.node c l e r) way).addrs.Nodup) (s : Side) :
    (plug (.node c l e r) way).childAddr s e.addr =
      ((node c l e r).child s).elem?.map (·.addr) := by
  rw [childAddr, at?_plug way _ hnodup (by simp [addrs, inorder]), at?, if_pos rfl]
  rfl

lemma element_plug (hnodup : (plug (.node c l e r) way).addrs.Nodup) :
    (plug (.node c l e r) way).element e.addr = some e := by
  rw [element, at?_plug way _ hnodup (by simp [addrs, inorder]), at?, if_pos rfl]
  rfl

lemma PathTo.element (h : PathTo t path e) (hnodup : t.addrs.Nodup) :
    path.getLast? = some e.addr ∧ t.element e.addr = some e := by
  obtain ⟨c, l, r, way, rfl, rfl⟩ := h
  exact ⟨by simp, element_plug hnodup⟩

lemma addr_plug : ∀ (way : List (Frame κ)) (t : Tree κ) {a : Nat}, t.elem?.map (·.addr) = some a →
    (plug t way).elem?.map (·.addr) = ((way.map (·.elem.addr)).reverse ++ [a]).head? := by
  intro way
  induction way with
  | nil => exact fun t a h => h
  | cons f rest ih =>
    intro t a _
    have hfill : (f.fill t).elem?.map (·.addr) = some f.elem.addr := by
      unfold Frame.fill mk
      cases f.side <;> rfl
    rw [plug, ih _ hfill, map_cons, reverse_cons, append_assoc]
    cases (rest.map (·.elem.addr)).reverse <;> rfl

lemma PathTo.head (h : PathTo t path e) : path.head? = t.elem?.map (·.addr) := by
  obtain ⟨c, l, r, way, rfl, rfl⟩ := h
  exact (addr_plug way (.node c l e r) rfl).symm

end Memory

section Next

def ahead (s : Side) (way : List (Frame κ)) : List (Element κ) :=
  match s with
  | .left => after way
  | .right => (before way).reverse

variable (s : Side)

lemma walk_plug (way : List (Frame κ)) (t : Tree κ) :
    ∃ xs, (plug t way).walk s = xs ++ t.walk s ++ ahead s way := by
  cases s with
  | left => exact ⟨before way, inorder_plug way t⟩
  | right =>
    refine ⟨(after way).reverse, ?_⟩
    simp [walk, ahead, inorder_plug, append_assoc]

lemma walk_node (c : Colour) (l r : Tree κ) (e : Element κ) :
    (node c l e r).walk s = ((node c l e r).child s).walk s ++
      e :: ((node c l e r).child s.other).walk s := by
  cases s with
  | left => rfl
  | right => simp [walk, child, inorder, Side.other]

variable {f : Frame κ}

lemma ahead_same {s : Side} (h : f.side = s) (rest : List (Frame κ)) :
    ahead s (f :: rest) = f.elem :: f.sibling.walk s ++ ahead s rest := by
  cases s with
  | left => simp [ahead, after, h, walk]
  | right => simp [ahead, before, h, walk]

lemma ahead_other {s : Side} (h : f.side ≠ s) (rest : List (Frame κ)) :
    ahead s (f :: rest) = ahead s rest := by
  cases s <;> grind [ahead, after, before]

def wayAddrs (way : List (Frame κ)) : List Nat := way.map (·.elem.addr)

lemma walk_nil : (nil : Tree κ).walk s = [] := by
  cases s <;> rfl

lemma length_child_lt (c : Colour) (l r : Tree κ) (e : Element κ) :
    ((node c l e r).child s).inorder.length < (node c l e r).inorder.length := by
  cases s <;> simp only [child, inorder, length_append, length_cons] <;> omega

lemma plug_child (c : Colour) (l r : Tree κ) (e : Element κ) (way : List (Frame κ)) :
    plug ((node c l e r).child s)
        (⟨s, c, e, (node c l e r).child s.other⟩ :: way) =
      plug (.node c l e r) way := by
  cases s <;> rfl

variable {t : Tree κ}

lemma nextDown_spec (hnodup : t.addrs.Nodup) (near : Side) :
    ∀ (fuel : Nat) (c : Colour) (l r : Tree κ) (e : Element κ) (way : List (Frame κ)),
    (node c l e r).inorder.length ≤ fuel → plug (.node c l e r) way = t →
    ∃ c' l' e' r' way' ys, plug (.node c' l' e' r') way' = t ∧
      nextDown t near fuel (e.addr :: wayAddrs way) = e'.addr :: wayAddrs way' ∧
      (node c l e r).walk near = e' :: ys := by
  intro fuel
  induction fuel with
  | zero => intro c l r e way hlen; simp [inorder] at hlen
  | succ fuel ih =>
    intro c l r e way hlen ht
    have hchild : t.childAddr near e.addr = _ := ht ▸ childAddr_plug (ht ▸ hnodup) near
    have hstep := (plug_child near c l r e way).trans ht
    have hlt := length_child_lt near c l r e
    rw [nextDown, hchild, walk_node]
    cases hnear : (node c l e r).child near with
    | nil =>
      refine ⟨c, l, e, r, way, ((node c l e r).child near.other).walk near, ht, rfl, ?_⟩
      rw [walk_nil, nil_append]
    | node c₁ l₁ e₁ r₁ =>
      rw [hnear] at hstep hlt
      obtain ⟨c', l', e', r', way', ys, hplug, hdown, hwalk⟩ := ih c₁ l₁ r₁ e₁ _ (by omega) hstep
      rw [hwalk, cons_append]
      exact ⟨c', l', e', r', way', _, hplug, hdown, rfl⟩

lemma elem?_addr_mem {a : Nat} (h : t.elem?.map (·.addr) = some a) : a ∈ t.addrs := by
  cases t with
  | nil => simp [elem?] at h
  | node c l e r =>
    simp only [elem?, map_some, some.injEq] at h
    simp [addrs, inorder, h]

lemma exists_fill (f : Frame κ) (t : Tree κ) : ∃ l r, f.fill t = .node f.colour l f.elem r := by
  unfold Frame.fill mk
  cases f.side with
  | left => exact ⟨t, f.sibling, rfl⟩
  | right => exact ⟨f.sibling, t, rfl⟩

lemma child_fill (f : Frame κ) (t : Tree κ) :
    (f.fill t).child s = if f.side = s then t else f.sibling := by
  unfold Frame.fill mk
  cases f.side <;> cases s <;> rfl

lemma Side.ne_other_iff (s near : Side) : s ≠ near.other ↔ s = near := by
  cases s <;> cases near <;> decide

lemma nextUp_spec (hnodup : t.addrs.Nodup) (near : Side) :
    ∀ (way : List (Frame κ)) (u : Tree κ) (x : Nat), u.elem?.map (·.addr) = some x →
    plug u way = t →
    (nextUp t near.other x (wayAddrs way) = [] ∧ ahead near way = []) ∨
    ∃ c' l' e' r' way' ys, plug (.node c' l' e' r') way' = t ∧
      nextUp t near.other x (wayAddrs way) = e'.addr :: wayAddrs way' ∧
      ahead near way = e' :: ys := by
  intro way
  induction way with
  | nil => exact fun u x _ _ => .inl ⟨rfl, by cases near <;> rfl⟩
  | cons f rest ih =>
    intro u x hx ht
    obtain ⟨l, r, hfill⟩ := exists_fill f u
    have hplug : plug (.node f.colour l f.elem r) rest = t := hfill ▸ ht
    have hchild : t.childAddr near.other f.elem.addr = _ :=
      hplug ▸ childAddr_plug (hplug ▸ hnodup) near.other
    rw [← hfill, child_fill] at hchild
    rw [wayAddrs, map_cons, nextUp, hchild]
    by_cases hside : f.side = near.other
    · -- it was the child on the far side: up
      rw [if_pos hside, if_pos hx, ahead_other (by rw [hside]; cases near <;> decide)]
      exact ih (f.fill u) f.elem.addr (by rw [hfill]; rfl) ht
    · have hsib : f.sibling.elem?.map (·.addr) ≠ some x := by
        intro h
        have hnodup' : (f.fill u).addrs.Nodup :=
          nodup_of_plug (show (plug (f.fill u) rest).addrs.Nodup from ht ▸ hnodup)
        have hsplit := (addrs_mk f.side f.colour u f.sibling f.elem).nodup_iff.mp hnodup'
        exact (nodup_append.mp (nodup_cons.mp hsplit).2).2.2 x (elem?_addr_mem hx) x
          (elem?_addr_mem h) rfl
      rw [if_neg hside, if_neg hsib]
      exact .inr ⟨_, l, f.elem, r, rest, _, hplug, rfl,
        ahead_same ((Side.ne_other_iff _ _).mp hside) rest⟩

lemma PathTo.of_plug (h : plug (.node c l e r) way = t) :
    PathTo t (e.addr :: wayAddrs way).reverse e :=
  ⟨c, l, r, way, h, reverse_cons⟩

/-- From a way that leads to `e`, the search goes to the element behind `e` and leaves the
way to it. -/
lemma nextWay_spec (hnodup : t.addrs.Nodup) (near : Side) (h : PathTo t path e) :
    ∃ xs ys, t.walk near = xs ++ e :: ys ∧
      match ys with
      | [] => nextWay t near path.reverse = []
      | e' :: _ => PathTo t (nextWay t near path.reverse).reverse e' := by
  obtain ⟨c, l, r, way, hplug, rfl⟩ := h
  obtain ⟨xs, hwalk⟩ := walk_plug near way (.node c l e r)
  rw [hplug, walk_node] at hwalk
  refine ⟨xs ++ ((node c l e r).child near).walk near,
    ((node c l e r).child near.other).walk near ++ ahead near way,
    by simp [hwalk], ?_⟩
  have hrev : ((way.map (·.elem.addr)).reverse ++ [e.addr]).reverse = e.addr :: wayAddrs way := by
    simp [wayAddrs]
  have hchild : t.childAddr near.other e.addr = _ :=
    hplug ▸ childAddr_plug (hplug ▸ hnodup) near.other
  have hstep := (plug_child near.other c l r e way).trans hplug
  rw [hrev, nextWay, hchild]
  cases hfar : (node c l e r).child near.other with
  | nil =>
    rw [walk_nil, nil_append]
    rcases nextUp_spec hnodup near way (.node c l e r) e.addr rfl hplug with
      ⟨hup, hahead⟩ | ⟨c', l', e', r', way', ys, hplug', hup, hahead⟩
    · rw [hahead]
      exact hup
    · rw [hahead]
      show PathTo t (nextUp t near.other e.addr (wayAddrs way)).reverse e'
      rw [hup]
      exact .of_plug hplug'
  | node c₁ l₁ e₁ r₁ =>
    rw [hfar] at hstep
    have hlen : (node c₁ l₁ e₁ r₁).inorder.length ≤ t.inorder.length := by
      rw [← hstep, inorder_plug]
      simp only [length_append]
      omega
    obtain ⟨c', l', e', r', way', ys, hplug', hdown, hwalk'⟩ :=
      nextDown_spec hnodup near _ c₁ l₁ r₁ e₁ _ hlen hstep
    rw [hwalk', cons_append]
    show PathTo t (nextDown t near t.inorder.length (e₁.addr :: e.addr :: wayAddrs way)).reverse e'
    rw [show nextDown t near _ (e₁.addr :: e.addr :: wayAddrs way) = _ from hdown]
    exact .of_plug hplug'

end Next

section Search

variable {t : Tree κ} {e : Element κ} {way : List Nat} {pos : Option Nat} {cand : Candidates}

lemma PathTo.ne_nil (h : PathTo t path e) : path ≠ [] := by
  obtain ⟨c, l, r, way, -, rfl⟩ := h
  simp

@[simp] lemma Cursor.path_write (cursor : Cursor) (way : List Nat) (pos : Option Nat) :
    Cursor.path ⟨cursor.write way, pos⟩ way.length = way := by
  simp [Cursor.path, Cursor.write]

lemma edgeWay_spec (s : Side) : ∀ (t : Tree κ) (way : List (Frame κ)), plug t way = t₀ → t ≠ .nil →
    ∃ e, PathTo t₀ ((wayAddrs way).reverse ++ edgeWay s t) e := by
  intro t
  induction t with
  | nil => exact fun way _ h => absurd rfl h
  | node c l e r ihl ihr =>
    intro way hplug _
    have hhere : PathTo t₀ ((wayAddrs way).reverse ++ [e.addr]) e := ⟨c, l, r, way, hplug, rfl⟩
    have hstep := (plug_child s c l r e way).trans hplug
    have happ : ∀ xs : List Nat, (wayAddrs way).reverse ++ e.addr :: xs =
        (wayAddrs (⟨s, c, e, (node c l e r).child s.other⟩ :: way)).reverse ++ xs := by
      intro xs
      simp [wayAddrs]
    cases s with
    | left =>
      by_cases hl : l = .nil
      · rw [hl]; exact ⟨e, hhere⟩
      · obtain ⟨e', h⟩ := ihl _ hstep hl
        exact ⟨e', by rw [edgeWay, happ]; exact h⟩
    | right =>
      by_cases hr : r = .nil
      · rw [hr]; exact ⟨e, hhere⟩
      · obtain ⟨e', h⟩ := ihr _ hstep hr
        exact ⟨e', by rw [edgeWay, happ]; exact h⟩

/-- A candidate is an entry of the way, and the way up to it leads to an element. -/
def Leads (t : Tree κ) (way : List Nat) (pos : Option Nat) : Prop :=
  ∀ k, pos = some k → k ≤ way.length ∧ ∃ e, PathTo t (way.take k) e

lemma Leads.append (h : Leads t way pos) (xs : List Nat) : Leads t (way ++ xs) pos := by
  intro k hk
  obtain ⟨hle, e, he⟩ := h k hk
  refine ⟨by rw [length_append]; omega, e, ?_⟩
  rwa [take_append_of_le_length hle]

lemma Leads.here (h : PathTo t way e) : Leads t way (some way.length) := by
  rintro k ⟨⟩
  exact ⟨Nat.le_refl _, e, by rwa [take_length]⟩

lemma Leads.or (ha : Leads t way a) (hb : Leads t way b) : Leads t way (a.or b) := by
  intro k hk
  rcases or_eq_some_iff.mp hk with h | ⟨-, h⟩
  · exact ha k h
  · exact hb k h

structure Candidates.Lead (t : Tree κ) (way : List Nat) (cand : Candidates) : Prop where
  left : Leads t way cand.lastLeftStep
  right : Leads t way cand.lastRightStep
  equal : Leads t way cand.lastEqual

lemma Candidates.Lead.append (h : cand.Lead t way) (xs : List Nat) : cand.Lead t (way ++ xs) :=
  ⟨h.left.append xs, h.right.append xs, h.equal.append xs⟩

lemma searchLoop_lead (flag : RkeyFunction) (cmp : κ → Ordering) :
    ∀ (t : Tree κ) (way : List (Frame κ)) (cand : Candidates), plug t way = t₀ →
    cand.Lead t₀ (wayAddrs way).reverse → ∀ cand',
    (searchLoop flag cmp t (wayAddrs way).reverse cand).2 = some cand' →
    cand'.Lead t₀ (searchLoop flag cmp t (wayAddrs way).reverse cand).1 := by
  intro t
  induction t with
  | nil =>
    intro way cand _ hlead cand' h
    cases h
    exact hlead
  | node c l e r ihl ihr =>
    intro way cand hplug hlead cand'
    have hhere : PathTo t₀ ((wayAddrs way).reverse ++ [e.addr]) e := ⟨c, l, r, way, hplug, rfl⟩
    have hnow := Leads.here hhere
    have hold := hlead.append [e.addr]
    have hleft := ihl (⟨.left, c, e, r⟩ :: way)
    have hright := ihr (⟨.right, c, e, l⟩ :: way)
    have hcons (x : Frame κ) : (wayAddrs (x :: way)).reverse =
        (wayAddrs way).reverse ++ [x.elem.addr] := by simp [wayAddrs]
    rw [hcons] at hleft hright
    simp only [searchLoop]
    cases cmp e.key with
    | lt =>
      refine hright _ hplug ?_ cand'
      exact ⟨hold.left, hnow, hold.equal⟩
    | gt =>
      refine hleft _ hplug ?_ cand'
      exact ⟨hnow, hold.right, hold.equal⟩
    | eq =>
      cases flag with
      | keyExact | keyOrNext | beforeKey | keyOrPrev =>
        refine hleft _ hplug ?_ cand'
        exact ⟨hnow, hold.right, hnow⟩
      | afterKey =>
        refine hright _ hplug ?_ cand'
        exact ⟨hold.left, hnow, hold.equal⟩
      | prefixLast | prefixLastOrPrev =>
        refine hright _ hplug ?_ cand'
        exact ⟨hold.left, hnow, hnow⟩
      | other => exact fun h => absurd h (by simp)

lemma Candidates.Lead.choose (h : cand.Lead t way)
    (hpos : cand.choose flag = some pos) : Leads t way pos := by
  cases flag with
  | keyExact | prefixLast => exact some.inj hpos ▸ h.equal
  | keyOrNext => exact some.inj hpos ▸ h.equal.or h.left
  | afterKey => exact some.inj hpos ▸ h.left
  | prefixLastOrPrev | keyOrPrev => exact some.inj hpos ▸ h.equal.or h.right
  | beforeKey => exact some.inj hpos ▸ h.right
  | other => cases hpos

lemma searchLoop_isSome (hflag : flag ≠ .other) (cmp : κ → Ordering) :
    ∀ (t : Tree κ) (way : List Nat) (cand : Candidates),
    ∃ cand', (searchLoop flag cmp t way cand).2 = some cand' := by
  intro t
  induction t with
  | nil => exact fun way cand => ⟨cand, rfl⟩
  | node c l e r ihl ihr =>
    intro way cand
    simp only [searchLoop]
    cases cmp e.key with
    | lt => exact ihr _ _
    | gt => exact ihl _ _
    | eq =>
      cases flag with
      | keyExact | keyOrNext | beforeKey | keyOrPrev => exact ihl _ _
      | afterKey | prefixLast | prefixLastOrPrev => exact ihr _ _
      | other => exact absurd rfl hflag

lemma Candidates.choose_isSome (hflag : flag ≠ .other)
    (cand : Candidates) : ∃ pos, cand.choose flag = some pos := by
  cases flag with
  | other => exact absurd rfl hflag
  | _ => exact ⟨_, rfl⟩

lemma Cursor.path_write_of_le (h : k ≤ way.length) (cursor : Cursor) (pos : Option Nat) :
    Cursor.path ⟨cursor.write way, pos⟩ k = way.take k := by
  exact take_append_of_le_length h

/-- The search found `e` and left the way to it. -/
def Finds (t : Tree κ) (found : Option (Element κ) × Cursor) (e : Element κ) : Prop :=
  found.1 = some e ∧ ∃ pos, found.2.lastPos = some pos ∧ 0 < pos ∧ PathTo t (found.2.path pos) e

lemma finds_treeSearchKey (hnodup : t.addrs.Nodup) {cmp : κ → Ordering} {k : Nat}
    (hloop : searchLoop flag cmp t [] ⟨none, none, none⟩ = (way, some cand))
    (hk : cand.choose flag = some (some k)) (hle : k ≤ way.length) (he : PathTo t (way.take k) e)
    (cursor : Cursor) : Finds t (treeSearchKey t flag cmp cursor) e := by
  obtain ⟨hlast, helem⟩ := he.element hnodup
  have hpos : 0 < k := by
    rcases Nat.eq_zero_or_pos k with rfl | hk
    · exact absurd (take_zero ..) he.ne_nil
    · exact hk
  have hin : k - 1 < way.length := by omega
  simp only [treeSearchKey, hloop, bind_some, hk]
  refine ⟨?_, k, rfl, hpos, ?_⟩
  · rw [getLast?_take, if_neg (by omega), getElem?_eq_getElem hin, some_or] at hlast
    simp only [Cursor.write]
    rwa [getElem?_append_left hin, getElem?_eq_getElem hin, hlast]
  · rw [Cursor.path_write_of_le hle]
    exact he

/-- With a flag that it knows the search finds an element or resets `last_pos`. -/
lemma treeSearchKey_spec (hnodup : t.addrs.Nodup)
    (hflag : flag ≠ .other) (cmp : κ → Ordering) (cursor : Cursor) :
    ((treeSearchKey t flag cmp cursor).1 = none ∧
      (treeSearchKey t flag cmp cursor).2.lastPos = none) ∨
    ∃ e, Finds t (treeSearchKey t flag cmp cursor) e := by
  obtain ⟨cand, hcand⟩ := searchLoop_isSome hflag cmp t [] ⟨none, none, none⟩
  obtain ⟨pos, hpos⟩ := cand.choose_isSome hflag
  have hnone : Leads t (wayAddrs ([] : List (Frame κ))).reverse none := fun k hk => nomatch hk
  have hlead := searchLoop_lead flag cmp t [] ⟨none, none, none⟩ rfl ⟨hnone, hnone, hnone⟩ cand
    hcand
  cases pos with
  | none => exact .inl (by simp [treeSearchKey, hcand, hpos])
  | some k =>
    obtain ⟨hle, e, he⟩ := hlead.choose hpos k rfl
    exact .inr ⟨e, finds_treeSearchKey hnodup (Prod.ext rfl hcand) hpos hle he cursor⟩

/-- On an empty tree `last_pos` points to the null element. -/
lemma treeSearchEdge_spec (hnodup : t.addrs.Nodup) (s : Side) (cursor : Cursor) :
    ((treeSearchEdge t s cursor).1 = none ∧ (treeSearchEdge t s cursor).2.lastPos = some 0) ∨
    ∃ e, Finds t (treeSearchEdge t s cursor) e := by
  by_cases ht : t = .nil
  · subst ht
    exact .inl ⟨rfl, rfl⟩
  · obtain ⟨e, he⟩ := edgeWay_spec s t [] rfl ht
    change PathTo t (edgeWay s t) e at he
    obtain ⟨hlast, helem⟩ := he.element hnodup
    refine .inr ⟨e, ?_, (edgeWay s t).length, rfl, ?_, ?_⟩
    · simp [treeSearchEdge, hlast, helem]
    · exact length_pos_of_ne_nil he.ne_nil
    · rw [treeSearchEdge, Cursor.path_write]
      exact he

/-- From the way to an element, the search goes to the next one, or to the null element at
the end. -/
lemma treeSearchNext_spec (hnodup : t.addrs.Nodup) (near : Side) {cursor : Cursor}
    {pos : Nat} (h : PathTo t (cursor.path pos) e) :
    ∃ xs ys, t.walk near = xs ++ e :: ys ∧
      match ys with
      | [] => (treeSearchNext t near cursor pos).1 = none ∧
        (treeSearchNext t near cursor pos).2.lastPos = some 0
      | e' :: _ => Finds t (treeSearchNext t near cursor pos) e' := by
  obtain ⟨xs, ys, hwalk, hnext⟩ := nextWay_spec hnodup near h
  refine ⟨xs, ys, hwalk, ?_⟩
  unfold treeSearchNext
  cases ys with
  | nil =>
    rw [hnext]
    exact ⟨rfl, rfl⟩
  | cons e' rest =>
    obtain ⟨hlast, helem⟩ := hnext.element hnodup
    rw [getLast?_reverse] at hlast
    refine ⟨?_, _, rfl, ?_, ?_⟩
    · simp [hlast, helem]
    · exact length_pos_of_ne_nil (reverse_ne_nil_iff.mp hnext.ne_nil)
    · dsimp only
      rwa [← length_reverse, Cursor.path_write]

end Search

end MariaDB.Heap
