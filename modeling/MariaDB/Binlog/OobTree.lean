import MariaDB.Binlog.ComprInt

/-!
# Out-of-band binlogging

A large transaction is binlogged in pieces. `innodb_binlog_oob_ordered()` writes each piece
as a node of a forest of perfect binary trees: a new node joins the last two trees if they
are of one height, and is a leaf with a link to the root of the prior tree otherwise. A
savepoint keeps the list of roots, and a rollback restores it.
-/
namespace MariaDB.Binlog

abbrev BinlogPos := Nat × Nat

inductive ChunkType
  | commit
  | gtidState
  | oobData
  | dummy
  | xaPrepare
  | xaComplete
  deriving DecidableEq, Repr

structure BinlogRecord where
  type : ChunkType
  payload : List UInt8
  deriving DecidableEq

/-- The records of the binlog, by the position of their first chunk. -/
abbrev BinlogStore := BinlogPos → Option BinlogRecord

/-- `node_info`: the root of a tree of the forest. -/
structure OobNode where
  pos : BinlogPos
  nodeIndex : Nat
  height : Nat
  deriving DecidableEq, Repr

def oobHeader (idx : Nat) (left right : BinlogPos) : List UInt8 :=
  comprIntWrite (idx % 2 ^ 64) ++ (comprIntWrite left.1 ++ (comprIntWrite left.2 ++
    (comprIntWrite right.1 ++ comprIntWrite right.2)))

def chunkDataOob (idx : Nat) (left right : BinlogPos) (data : List UInt8) : List UInt8 :=
  oobHeader idx left right ++ data

/-- `binlog_oob_context`. The node list has the last root first, and so have the lists kept
by savepoints; the newest savepoint is on top of the stack. -/
structure OobCtx where
  nodeList : List OobNode
  firstNode : BinlogPos
  pendingRefcount : Bool
  stmtStartPoint : Option (List OobNode)
  savepointStack : List (List OobNode)
  isXaPrepared : Bool

namespace OobCtx

/-- `alloc_oob_context()`. -/
def alloc : OobCtx := ⟨[], (0, 0), false, none, [], false⟩

variable (c : OobCtx)

def newIdx : Nat :=
  match c.nodeList with
  | [] => 0
  | n :: _ => n.nodeIndex + 1

/-- The links of a new node: to the last two trees if they are of one height. A leaf has no
left child, and its right link leads to the prior tree. -/
def links : BinlogPos × BinlogPos :=
  match c.nodeList with
  | [] => ((0, 0), (0, 0))
  | [n] => ((0, 0), n.pos)
  | right :: left :: _ =>
    if left.height = right.height then (left.pos, right.pos) else ((0, 0), right.pos)

/-- The list of roots after `binlog_node()` has written a node at a position. -/
def addNode (pos : BinlogPos) : List OobNode :=
  match c.nodeList with
  | right :: left :: rest =>
    if left.height = right.height then ⟨pos, c.newIdx, left.height + 1⟩ :: rest
    else ⟨pos, c.newIdx, 1⟩ :: right :: left :: rest
  | roots => ⟨pos, c.newIdx, 1⟩ :: roots

def oobRecord (data : List UInt8) : BinlogRecord :=
  ⟨.oobData, chunkDataOob c.newIdx c.links.1 c.links.2 data⟩

/-- Binlog a piece that lands at a position. For the first node, `refFound` is whether the
reference could be counted. -/
def binlogPiece (pos : BinlogPos) (refFound : Bool) : OobCtx :=
  if c.nodeList = [] then
    { c with nodeList := c.addNode pos, firstNode := pos, pendingRefcount := refFound }
  else { c with nodeList := c.addNode pos }

section

variable (pos : BinlogPos) (refFound : Bool)
include pos refFound

@[simp] lemma binlogPiece_nodeList : (c.binlogPiece pos refFound).nodeList = c.addNode pos := by
  unfold binlogPiece
  split_ifs <;> rfl

@[simp] lemma binlogPiece_stmtStartPoint :
    (c.binlogPiece pos refFound).stmtStartPoint = c.stmtStartPoint := by
  unfold binlogPiece
  split_ifs <;> rfl

@[simp] lemma binlogPiece_savepointStack :
    (c.binlogPiece pos refFound).savepointStack = c.savepointStack := by
  unfold binlogPiece
  split_ifs <;> rfl

@[simp] lemma binlogPiece_isXaPrepared :
    (c.binlogPiece pos refFound).isXaPrepared = c.isXaPrepared := by
  unfold binlogPiece
  split_ifs <;> rfl

end

def createStmtStartPoint : OobCtx := { c with stmtStartPoint := some c.nodeList }

def createSavepoint : OobCtx := { c with savepointStack := c.nodeList :: c.savepointStack }

def setPoints (stmtStart savepoint : Bool) : OobCtx :=
  let c := if stmtStart then c.createStmtStartPoint else c
  if savepoint then c.createSavepoint else c

/-- Roll back to a savepoint, by its place on the stack; later savepoints are removed. -/
def rollbackToSavepoint (i : Nat) : OobCtx :=
  { c with
    nodeList := c.savepointStack.getD i []
    savepointStack := c.savepointStack.drop i }

def rollbackToStmtStart : OobCtx := { c with nodeList := c.stmtStartPoint.getD [] }

/-- `reset_oob_context()`, but for the reference count. -/
def reset : OobCtx :=
  { c with
    nodeList := []
    pendingRefcount := false
    stmtStartPoint := c.stmtStartPoint.map fun _ => []
    savepointStack := []
    isXaPrepared := false }

end OobCtx

/-! ## Transactions -/

inductive OobEvent
  /-- `innodb_binlog_oob_ordered()`, which may start a statement or set a savepoint before
  it writes the piece, if there is one. -/
  | oob (data : List UInt8) (stmtStart savepoint : Bool) (pos : BinlogPos)
  | rollbackToSavepoint (i : Nat)
  | rollbackToStmtStart
  /-- Any other record is written. -/
  | other (pos : BinlogPos) (record : BinlogRecord)

structure OobState where
  ctx : OobCtx
  store : BinlogStore

namespace OobState

def write (s : OobState) (pos : BinlogPos) (record : BinlogRecord) : BinlogStore :=
  Function.update s.store pos (some record)

def oobOrdered (s : OobState) (data : List UInt8) (stmtStart savepoint : Bool) (pos : BinlogPos) :
    OobState :=
  if s.ctx.isXaPrepared then s else
  let c := s.ctx.setPoints stmtStart savepoint
  if data = [] then { s with ctx := c }
  else ⟨c.binlogPiece pos true, s.write pos (c.oobRecord data)⟩

def step (s : OobState) : OobEvent → OobState
  | .oob data stmtStart savepoint pos => s.oobOrdered data stmtStart savepoint pos
  | .rollbackToSavepoint i => { s with ctx := s.ctx.rollbackToSavepoint i }
  | .rollbackToStmtStart => { s with ctx := s.ctx.rollbackToStmtStart }
  | .other pos record => { s with store := s.write pos record }

/-- A position where a record may land: no other record is there, it is not the header page
of the first file, and it is a pair of 64-bit numbers. -/
structure Fresh (s : OobState) (pos : BinlogPos) : Prop where
  unused : s.store pos = none
  ne_zero : pos ≠ (0, 0)
  fileNo_lt : pos.1 < 2 ^ 64
  offset_lt : pos.2 < 2 ^ 64

/-- The events that the server layer generates: rollbacks are to points that were set. -/
def Legal (s : OobState) : OobEvent → Prop
  | .oob data _ _ pos => data ≠ [] → s.Fresh pos
  | .rollbackToSavepoint i => i < s.ctx.savepointStack.length
  | .rollbackToStmtStart => s.ctx.stmtStartPoint.isSome
  | .other pos _ => s.Fresh pos

end OobState

/-! ## What is to be read -/

/-- The pieces of a transaction that are not rolled back, as they are and as they were at
the points that it may roll back to. -/
structure Pieces where
  pieces : List (List UInt8)
  stmtStart : List (List UInt8)
  savepoints : List (List (List UInt8))

namespace Pieces

def empty : Pieces := ⟨[], [], []⟩

def step (p : Pieces) : OobEvent → Pieces
  | .oob data stmtStart savepoint _ =>
    { pieces := if data = [] then p.pieces else p.pieces ++ [data]
      stmtStart := if stmtStart then p.pieces else p.stmtStart
      savepoints := if savepoint then p.pieces :: p.savepoints else p.savepoints }
  | .rollbackToSavepoint i =>
    { p with pieces := p.savepoints.getD i [], savepoints := p.savepoints.drop i }
  | .rollbackToStmtStart => { p with pieces := p.stmtStart }
  | .other _ _ => p

end Pieces

/-- A run of the transaction, with what is to be read. It starts with a new context, or with
one that an earlier transaction has used. -/
inductive OobRun : OobState → Pieces → Prop
  | alloc (store : BinlogStore) : OobRun ⟨.alloc, store⟩ .empty
  | reset (c : OobCtx) (store : BinlogStore) : OobRun ⟨c.reset, store⟩ .empty
  | step {s : OobState} {p : Pieces} {e : OobEvent} :
      OobRun s p → s.Legal e → OobRun (s.step e) (p.step e)

/-! ## Trees -/

/-- A binary tree of pieces; the root is written after its children. -/
inductive OobTree
  | leaf (pos : BinlogPos) (data : List UInt8)
  | node (pos : BinlogPos) (data : List UInt8) (left right : OobTree)

namespace OobTree

def root : OobTree → BinlogPos
  | leaf pos _ => pos
  | node pos _ _ _ => pos

def height : OobTree → Nat
  | leaf _ _ => 1
  | node _ _ left _ => left.height + 1

def Perfect : OobTree → Prop
  | leaf _ _ => True
  | node _ _ left right => left.height = right.height ∧ left.Perfect ∧ right.Perfect

def pieces : OobTree → List (List UInt8)
  | leaf _ data => [data]
  | node _ data left right => left.pieces ++ (right.pieces ++ [data])

/-- A link to a node: a pair of 64-bit numbers that are not both 0. -/
structure IsLink (pos : BinlogPos) : Prop where
  ne_zero : pos ≠ (0, 0)
  fileNo_lt : pos.1 < 2 ^ 64
  offset_lt : pos.2 < 2 ^ 64

/-- The tree is in the binlog, and its leftmost leaf has a link to `prior`. -/
def Stored (store : BinlogStore) (prior : BinlogPos) : OobTree → Prop
  | leaf pos data => IsLink pos ∧ data ≠ [] ∧
      ∃ idx, store pos = some ⟨.oobData, chunkDataOob idx (0, 0) prior data⟩
  | node pos data left right => IsLink pos ∧ data ≠ [] ∧
      (∃ idx, store pos = some ⟨.oobData, chunkDataOob idx left.root right.root data⟩) ∧
      left.Stored store prior ∧
      ∃ prior', (prior' = (0, 0) ∨ IsLink prior') ∧ right.Stored store prior'

lemma Stored.isLink {store : BinlogStore} {prior : BinlogPos} {t : OobTree}
    (h : t.Stored store prior) : IsLink t.root := by
  cases t <;> exact h.1

lemma height_pos (t : OobTree) : 0 < t.height := by
  cases t <;> simp [height]

lemma Stored.mono {store store' : BinlogStore} {prior : BinlogPos} {t : OobTree}
    (h : t.Stored store prior) (hle : ∀ pos r, store pos = some r → store' pos = some r) :
    t.Stored store' prior := by
  induction t generalizing prior with
  | leaf pos data =>
    obtain ⟨hpos, hdata, idx, hidx⟩ := h
    exact ⟨hpos, hdata, idx, hle _ _ hidx⟩
  | node pos data left right ihl ihr =>
    obtain ⟨hpos, hdata, ⟨idx, hidx⟩, hl, prior', hprior, hr⟩ := h
    exact ⟨hpos, hdata, ⟨idx, hle _ _ hidx⟩, ihl hl, prior', hprior, ihr hr⟩

end OobTree

def priorLink : List OobNode → BinlogPos
  | [] => (0, 0)
  | n :: _ => n.pos

/-- A forest of perfect trees, by its list of roots, the last one first, and its pieces. -/
inductive Forest (store : BinlogStore) : List OobNode → List (List UInt8) → Prop
  | nil : Forest store [] []
  | cons {roots : List OobNode} {pieces : List (List UInt8)} (n : OobNode) (t : OobTree) :
      Forest store roots pieces → t.Stored store (priorLink roots) → t.Perfect →
      n.pos = t.root → n.height = t.height → Forest store (n :: roots) (pieces ++ t.pieces)

/-- The heights of the trees, the last one first, increase strictly, but the first two may
be equal. -/
def HeightsOrdered : List OobNode → Prop
  | right :: left :: rest =>
    right.height ≤ left.height ∧ (left :: rest).IsChain fun a b => a.height < b.height
  | _ => True

variable {store : BinlogStore} {roots : List OobNode} {pieces : List (List UInt8)}

lemma Forest.mono {store' : BinlogStore} (h : Forest store roots pieces)
    (hle : ∀ pos r, store pos = some r → store' pos = some r) : Forest store' roots pieces := by
  induction h with
  | nil => exact .nil
  | cons n t _ ht hperfect hpos hheight ih => exact .cons n t ih (ht.mono hle) hperfect hpos hheight

lemma Forest.isLink {n : OobNode} (h : Forest store (n :: roots) pieces) :
    OobTree.IsLink n.pos := by
  cases h with
  | cons _ t _ ht _ hpos _ =>
    rw [hpos]
    exact ht.isLink

lemma Forest.priorLink_isLink (h : Forest store roots pieces) :
    priorLink roots = (0, 0) ∨ OobTree.IsLink (priorLink roots) := by
  cases roots with
  | nil => exact .inl rfl
  | cons n roots => exact .inr h.isLink

lemma Forest.eq_nil (h : Forest store [] pieces) : pieces = [] := by
  cases h
  rfl

/-! ## Adding a node -/

section

variable {s : OobState} {c : OobCtx} {pos : BinlogPos} {data : List UInt8}
  {pieces : List (List UInt8)}

lemma OobState.write_of_fresh (hpos : s.Fresh pos) (record : BinlogRecord) :
    ∀ q r, s.store q = some r → s.write pos record q = some r := by
  intro q r hr
  have hne : q ≠ pos := by
    rintro rfl
    rw [hpos.unused] at hr
    cases hr
  rw [OobState.write, Function.update_of_ne hne, hr]

lemma OobState.Fresh.isLink (hpos : s.Fresh pos) : OobTree.IsLink pos :=
  ⟨hpos.ne_zero, hpos.fileNo_lt, hpos.offset_lt⟩

/-- A leaf is added behind the forest. -/
lemma Forest.addLeaf (h : Forest store roots pieces) (hpos : OobTree.IsLink pos) (hdata : data ≠ [])
    (hstore : store pos = some ⟨.oobData, chunkDataOob idx (0, 0) (priorLink roots) data⟩)
    (idx' : Nat) : Forest store (⟨pos, idx', 1⟩ :: roots) (pieces ++ [data]) :=
  .cons _ (.leaf pos data) h ⟨hpos, hdata, idx, hstore⟩ trivial rfl rfl

/-- The last two trees become the children of a new root. -/
lemma Forest.join (h : Forest store (right :: left :: roots) pieces)
    (heq : left.height = right.height) (hpos : OobTree.IsLink pos) (hdata : data ≠ [])
    (hstore : store pos = some ⟨.oobData, chunkDataOob idx left.pos right.pos data⟩) (idx' : Nat) :
    Forest store (⟨pos, idx', left.height + 1⟩ :: roots) (pieces ++ [data]) := by
  cases h with
  | cons _ r hrest hr hrPerfect hrPos hrHeight =>
    have hprior := hrest.priorLink_isLink
    cases hrest with
    | cons _ l hroots hl hlPerfect hlPos hlHeight =>
      rw [hlPos, hrPos] at hstore
      have hjoined : Forest store (⟨pos, idx', left.height + 1⟩ :: roots)
          (_ ++ (OobTree.node pos data l r).pieces) :=
        .cons _ (.node pos data l r) hroots ⟨hpos, hdata, ⟨idx, hstore⟩, hl, _, hprior, hr⟩
          ⟨by omega, hlPerfect, hrPerfect⟩ rfl (by simp [OobTree.height, hlHeight])
      simpa [OobTree.pieces] using hjoined

lemma Forest.addNode (h : Forest s.store c.nodeList pieces) (hpos : s.Fresh pos)
    (hdata : data ≠ []) :
    Forest (s.write pos (c.oobRecord data)) (c.addNode pos) (pieces ++ [data]) := by
  have hforest := h.mono (OobState.write_of_fresh hpos (c.oobRecord data))
  have hself : s.write pos (c.oobRecord data) pos = some (c.oobRecord data) :=
    Function.update_self ..
  generalize s.write pos (c.oobRecord data) = store at *
  unfold OobCtx.oobRecord OobCtx.links at hself
  unfold OobCtx.addNode
  split at hself
  · rename_i heq
    rw [heq] at hforest ⊢
    exact hforest.addLeaf hpos.isLink hdata hself _
  · rename_i n heq
    rw [heq] at hforest ⊢
    exact hforest.addLeaf hpos.isLink hdata hself _
  · rename_i right left rest heq
    rw [heq] at hforest ⊢
    dsimp only
    by_cases hheight : left.height = right.height
    · rw [if_pos hheight] at hself ⊢
      exact hforest.join hheight hpos.isLink hdata hself _
    · rw [if_neg hheight] at hself ⊢
      exact hforest.addLeaf hpos.isLink hdata hself _

lemma HeightsOrdered.addNode (h : HeightsOrdered c.nodeList)
    (hpos : ∀ n ∈ c.nodeList, 1 ≤ n.height) (pos : BinlogPos) :
    HeightsOrdered (c.addNode pos) := by
  unfold OobCtx.addNode
  split
  · rename_i right left rest heq
    rw [heq] at h hpos
    obtain ⟨hle, hchain⟩ := h
    split_ifs with hheight
    · -- the joined tree is at most as high as the one in front
      cases rest with
      | nil => trivial
      | cons n rest =>
        obtain ⟨hlt, hrest⟩ := List.isChain_cons_cons.mp hchain
        exact ⟨hlt, hrest⟩
    · refine ⟨hpos right (by simp), List.isChain_cons_cons.mpr ⟨?_, hchain⟩⟩
      omega
  · rename_i hne
    match hroots : c.nodeList with
    | [] => trivial
    | [n] => exact ⟨hpos n (by simp [hroots]), List.isChain_singleton n⟩
    | right :: left :: rest => exact absurd hroots (hne right left rest)

end

variable {pieces : List (List UInt8)}

lemma Forest.heights_pos (h : Forest store roots pieces) : ∀ n ∈ roots, 1 ≤ n.height := by
  induction h with
  | nil => simp
  | cons n t hrest ht hperfect hpos hheight ih =>
    intro m hm
    rcases List.mem_cons.mp hm with rfl | hm
    · rw [hheight]
      exact t.height_pos
    · exact ih m hm

/-! ## Runs -/

structure Roots (store : BinlogStore) (roots : List OobNode) (pieces : List (List UInt8)) :
    Prop where
  forest : Forest store roots pieces
  ordered : HeightsOrdered roots

/-- The state of a transaction agrees with the pieces that are to be read. -/
structure OobInv (s : OobState) (p : Pieces) : Prop where
  roots : Roots s.store s.ctx.nodeList p.pieces
  stmtStart : ∀ roots, s.ctx.stmtStartPoint = some roots → Roots s.store roots p.stmtStart
  savepoints : List.Forall₂ (Roots s.store) s.ctx.savepointStack p.savepoints
  not_prepared : s.ctx.isXaPrepared = false

lemma Roots.mono (h : Roots store roots pieces)
    (hle : ∀ pos r, store pos = some r → store' pos = some r) : Roots store' roots pieces :=
  ⟨h.forest.mono hle, h.ordered⟩

lemma Roots.addNode {s : OobState} {c : OobCtx} {pos : BinlogPos} {data : List UInt8}
    (h : Roots s.store c.nodeList pieces) (hpos : s.Fresh pos) (hdata : data ≠ []) :
    Roots (s.write pos (c.oobRecord data)) (c.addNode pos) (pieces ++ [data]) :=
  ⟨h.forest.addNode hpos hdata, h.ordered.addNode h.forest.heights_pos pos⟩

namespace OobInv

variable {s : OobState}

lemma write (h : OobInv s p) {pos : BinlogPos} (hpos : s.Fresh pos) (record : BinlogRecord) :
    OobInv { s with store := s.write pos record } p where
  roots := h.roots.mono (OobState.write_of_fresh hpos record)
  stmtStart roots hroots := (h.stmtStart roots hroots).mono (OobState.write_of_fresh hpos record)
  savepoints := h.savepoints.imp fun _ _ hr => hr.mono (OobState.write_of_fresh hpos record)
  not_prepared := h.not_prepared

lemma setPoints (h : OobInv s p) (stmtStart savepoint : Bool) :
    OobInv { s with ctx := s.ctx.setPoints stmtStart savepoint }
      { pieces := p.pieces
        stmtStart := if stmtStart then p.pieces else p.stmtStart
        savepoints := if savepoint then p.pieces :: p.savepoints else p.savepoints } := by
  have hstart : ∀ roots, (some s.ctx.nodeList : Option (List OobNode)) = some roots →
      Roots s.store roots p.pieces := by
    rintro roots ⟨⟩
    exact h.roots
  cases stmtStart <;> cases savepoint
  · exact h
  · exact ⟨h.roots, h.stmtStart, .cons h.roots h.savepoints, h.not_prepared⟩
  · exact ⟨h.roots, hstart, h.savepoints, h.not_prepared⟩
  · exact ⟨h.roots, hstart, .cons h.roots h.savepoints, h.not_prepared⟩

lemma oobOrdered (h : OobInv s p) {data : List UInt8} {pos : BinlogPos}
    (hpos : data ≠ [] → s.Fresh pos) (stmtStart savepoint : Bool) :
    OobInv (s.oobOrdered data stmtStart savepoint pos)
      (p.step (.oob data stmtStart savepoint pos)) := by
  have hinv := h.setPoints stmtStart savepoint
  unfold OobState.oobOrdered Pieces.step
  rw [if_neg (by simp [h.not_prepared])]
  dsimp only
  generalize s.ctx.setPoints stmtStart savepoint = c at *
  by_cases hdata : data = []
  · rw [if_pos hdata, if_pos hdata]
    exact hinv
  · rw [if_neg hdata, if_neg hdata]
    have hfresh := hpos hdata
    have hadd := hinv.roots.addNode (c := c) (s := { s with ctx := c }) { hfresh with } hdata
    have hwrite := OobState.write_of_fresh hfresh (c.oobRecord data)
    refine ⟨?_, fun roots hroots => (hinv.stmtStart roots ?_).mono hwrite, ?_, ?_⟩
    · rw [OobCtx.binlogPiece_nodeList]
      exact hadd
    · simpa using hroots
    · simpa using hinv.savepoints.imp fun _ _ hr => Roots.mono hr hwrite
    · simpa using hinv.not_prepared

lemma rollbackToSavepoint (h : OobInv s p) (hi : i < s.ctx.savepointStack.length) :
    OobInv { s with ctx := s.ctx.rollbackToSavepoint i } (p.step (.rollbackToSavepoint i)) where
  __ := h
  roots := by
    have hi' : i < p.savepoints.length := h.savepoints.length_eq ▸ hi
    have := h.savepoints.get hi hi'
    simpa [OobCtx.rollbackToSavepoint, Pieces.step, List.getD, hi, hi'] using this
  savepoints := List.forall₂_drop i h.savepoints

lemma rollbackToStmtStart (h : OobInv s p) (hsome : s.ctx.stmtStartPoint.isSome) :
    OobInv { s with ctx := s.ctx.rollbackToStmtStart } (p.step .rollbackToStmtStart) where
  __ := h
  roots := by
    obtain ⟨roots, hroots⟩ := Option.isSome_iff_exists.mp hsome
    simpa [OobCtx.rollbackToStmtStart, Pieces.step, hroots] using h.stmtStart roots hroots

lemma step (h : OobInv s p) (he : s.Legal e) : OobInv (s.step e) (p.step e) := by
  cases e with
  | oob data stmtStart savepoint pos => exact h.oobOrdered he stmtStart savepoint
  | rollbackToSavepoint i => exact h.rollbackToSavepoint he
  | rollbackToStmtStart => exact h.rollbackToStmtStart he
  | other pos record => exact h.write he record

lemma of_run (h : OobRun s p) : OobInv s p := by
  induction h with
  | alloc store => exact ⟨⟨.nil, trivial⟩, by simp [OobCtx.alloc], .nil, rfl⟩
  | reset c store =>
    refine ⟨⟨.nil, trivial⟩, fun roots hroots => ?_, .nil, rfl⟩
    obtain ⟨_, _, rfl⟩ := Option.map_eq_some_iff.mp hroots
    exact ⟨.nil, trivial⟩
  | step _ he ih => exact ih.step he

end OobInv

end MariaDB.Binlog
