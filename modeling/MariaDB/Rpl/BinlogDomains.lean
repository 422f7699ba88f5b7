import MariaDB.Rpl.BinlogState

/-!
# The domains of a binlog state

`rpl_binlog_state` keeps for each domain the last sequence number of each server, the server of
the most recent GTID and a counter. The counter is never below a number that was recorded, also
where later numbers are smaller, so that the numbers taken from it are new.
-/
namespace MariaDB.Rpl

open List

/-- `rpl_binlog_state::element`. `lastGtid` is the server of the entry that `last_gtid` points
to; a domain that was only bumped has none. -/
structure Domain where
  hash : Std.HashMap Nat Nat
  lastGtid : Option Nat
  seqNoCounter : Nat

/-- `update_element()`: an entry that is found is changed, else one is inserted. -/
def Domain.updateElement (elem : Domain) (gtid : Gtid) : Domain :=
  let hash := elem.hash.insert gtid.serverId gtid.seqNo
  if elem.lastGtid = some gtid.serverId then { elem with hash }
  else { elem with hash, lastGtid := gtid.serverId }

/-- `alloc_element_nolock()` -/
def Domain.alloc (gtid : Gtid) : Domain :=
  ⟨{(gtid.serverId, gtid.seqNo)}, gtid.serverId, gtid.seqNo⟩

def Domain.raise (elem : Domain) (seqNo : Nat) : Domain :=
  if elem.seqNoCounter < seqNo then { elem with seqNoCounter := seqNo } else elem

abbrev Domains := Std.HashMap Nat Domain

namespace Domains

/-- `find_nolock()` -/
def find (st : Domains) (domainId serverId : Nat) : Option Nat :=
  st[domainId]?.bind (·.hash[serverId]?)

def lastGtid (st : Domains) (domainId : Nat) : Option Gtid :=
  st[domainId]?.bind fun elem => elem.lastGtid.bind fun serverId =>
    elem.hash[serverId]?.map (⟨domainId, serverId, ·⟩)

/-! ### Recording GTIDs -/

def checkStrictSequence (st : Domains) (domainId seqNo : Nat) : Bool :=
  (st.lastGtid domainId).any (·.seqNo ≥ seqNo)

def update (st : Domains) (gtid : Gtid) (strict : Bool) : Bool × Domains :=
  match st[gtid.domainId]? with
  | some elem =>
    if strict && st.checkStrictSequence gtid.domainId gtid.seqNo then (true, st)
    else (false, st.insert gtid.domainId ((elem.raise gtid.seqNo).updateElement gtid))
  | none => (false, st.insert gtid.domainId (.alloc gtid))

def updateWithNextGtid (st : Domains) (domainId serverId : Nat) : Gtid × Domains :=
  match st[domainId]? with
  | some elem =>
    let seqNoCounter := (elem.seqNoCounter + 1) % 2 ^ 64
    let gtid := ⟨domainId, serverId, seqNoCounter⟩
    (gtid, st.insert domainId (Domain.updateElement { elem with seqNoCounter } gtid))
  | none =>
    let gtid := ⟨domainId, serverId, 1⟩
    (gtid, st.insert domainId (.alloc gtid))

def bumpSeqNoIfNeeded (st : Domains) (domainId seqNo : Nat) : Domains :=
  match st[domainId]? with
  | some elem => st.insert domainId (elem.raise seqNo)
  | none => st.insert domainId ⟨∅, none, seqNo⟩

lemma Domain.updateElement_eq (elem : Domain) (gtid : Gtid) : elem.updateElement gtid =
    ⟨elem.hash.insert gtid.serverId gtid.seqNo, gtid.serverId, elem.seqNoCounter⟩ := by
  grind [Domain.updateElement]

lemma Domain.raise_eq (elem : Domain) (seqNo : Nat) :
    elem.raise seqNo = { elem with seqNoCounter := max elem.seqNoCounter seqNo } := by
  cases elem
  grind [Domain.raise]

inductive Call where
  | update (gtid : Gtid) (strict : Bool)
  | updateWithNextGtid (domainId serverId : Nat)
  | bumpSeqNoIfNeeded (domainId seqNo : Nat)

/-- A state with the GTIDs that were recorded, the last one first, and all numbers that were
recorded or bumped in a domain. -/
structure History where
  state : Domains
  recorded : List Gtid
  numbers : List (Nat × Nat)

namespace History

def step (h : History) : Call → History
  | .update gtid strict =>
    let (error, state) := h.state.update gtid strict
    if error then { h with state }
    else ⟨state, gtid :: h.recorded, (gtid.domainId, gtid.seqNo) :: h.numbers⟩
  | .updateWithNextGtid domainId serverId =>
    let (gtid, state) := h.state.updateWithNextGtid domainId serverId
    ⟨state, ⟨domainId, serverId, gtid.seqNo⟩ :: h.recorded, (domainId, gtid.seqNo) :: h.numbers⟩
  | .bumpSeqNoIfNeeded domainId seqNo =>
    ⟨h.state.bumpSeqNoIfNeeded domainId seqNo, h.recorded, (domainId, seqNo) :: h.numbers⟩

def run (calls : List Call) : History := calls.foldl .step ⟨∅, [], []⟩

/-- The state has the last GTIDs, and a counter that is the largest number. -/
structure Tracks (h : History) : Prop where
  find : ∀ d s, h.state.find d s =
    (h.recorded.find? fun g => g.domainId = d ∧ g.serverId = s).map (·.seqNo)
  last : ∀ d, h.state.lastGtid d = h.recorded.find? (·.domainId = d)
  mem_numbers : ∀ g ∈ h.recorded, (g.domainId, g.seqNo) ∈ h.numbers
  le_counter : ∀ d n, (d, n) ∈ h.numbers → ∃ elem, h.state[d]? = some elem ∧ n ≤ elem.seqNoCounter
  counter_mem : ∀ d elem, h.state[d]? = some elem → (d, elem.seqNoCounter) ∈ h.numbers

/-- The numbers of each domain are recorded in increasing order, whatever the server is. -/
def Increasing (h : History) : Prop :=
  h.recorded.Pairwise fun g g' => g.domainId = g'.domainId → g'.seqNo < g.seqNo

/-- The state tracks what was done before, the next number is new, and only a strict update is
rejected, for a number that is not above the last one, with the state unchanged. -/
structure Correct (h : History) : Prop extends h.Tracks where
  next : ∀ d s n, (d, n) ∈ h.numbers → n < (h.state.updateWithNextGtid d s).1.seqNo
  rejected : ∀ gtid strict, (h.state.update gtid strict).1 = true ↔ strict = true ∧
    ∃ last, h.state.lastGtid gtid.domainId = some last ∧ gtid.seqNo ≤ last.seqNo
  unchanged : ∀ gtid strict,
    (h.state.update gtid strict).1 = true → (h.state.update gtid strict).2 = h.state

variable {h : History} {gtid : Gtid}

lemma Tracks.insert (ht : h.Tracks) {elem : Domain} {recorded : List Gtid}
    (hrec : recorded = h.recorded ∨ ∃ s, recorded = ⟨d, s, n⟩ :: h.recorded)
    (hfind : ∀ s, elem.hash[s]? =
      (recorded.find? fun g => g.domainId = d ∧ g.serverId = s).map (·.seqNo))
    (hlast : (elem.lastGtid.bind fun s => elem.hash[s]?.map (⟨d, s, ·⟩)) =
      recorded.find? (·.domainId = d))
    (hle : ∀ n', (d, n') ∈ (d, n) :: h.numbers → n' ≤ elem.seqNoCounter)
    (hmem : (d, elem.seqNoCounter) ∈ (d, n) :: h.numbers) :
    Tracks ⟨h.state.insert d elem, recorded, (d, n) :: h.numbers⟩ where
  find d' s := by
    have hold := ht.find d' s
    by_cases hd : d = d'
    · simpa [Domains.find, ← hd] using hfind s
    · rcases hrec with rfl | ⟨s', rfl⟩ <;> simp_all [Domains.find, Std.HashMap.getElem?_insert]
  last d' := by
    have hold := ht.last d'
    by_cases hd : d = d'
    · simpa [lastGtid, ← hd] using hlast
    · rcases hrec with rfl | ⟨s', rfl⟩ <;> simp_all [lastGtid, Std.HashMap.getElem?_insert]
  mem_numbers := by
    have hold := ht.mem_numbers
    grind
  le_counter d' n' hn := by
    have hold := ht.le_counter d' n'
    grind
  counter_mem d' elem' helem := by
    have hold := ht.counter_mem d' elem'
    grind

variable (ht : h.Tracks) (hsmall : ∀ d n, (d, n) ∈ h.numbers → n < 2 ^ 64 - 1)

include ht hsmall in
lemma Tracks.lt_next (d s n : Nat) (hn : (d, n) ∈ h.numbers) :
    n < (h.state.updateWithNextGtid d s).1.seqNo := by
  grind [updateWithNextGtid, Tracks]

lemma update_fst (st : Domains) (gtid : Gtid) (strict : Bool) : (st.update gtid strict).1 =
    (strict && st.checkStrictSequence gtid.domainId gtid.seqNo) := by
  grind [Domains.update, checkStrictSequence, Domains.lastGtid]

lemma update_snd {st : Domains} (herror : (st.update gtid strict).1 = true) :
    (st.update gtid strict).2 = st := by
  grind [Domains.update]

lemma Tracks.record (ht : h.Tracks) {d s n counter : Nat} (hash : Std.HashMap Nat Nat)
    (hhash : ∀ s, hash[s]? = h.state.find d s) (hle : ∀ n', (d, n') ∈ h.numbers → n' ≤ counter)
    (hge : n ≤ counter) (hmem : counter = n ∨ (d, counter) ∈ h.numbers) :
    Tracks ⟨h.state.insert d ⟨hash.insert s n, s, counter⟩, ⟨d, s, n⟩ :: h.recorded,
      (d, n) :: h.numbers⟩ := by
  refine ht.insert (.inr ⟨s, rfl⟩) (fun s' => ?_) (by simp) (by grind) (by grind)
  have hold := ht.find d s'
  by_cases hs : s = s' <;> simp_all [Std.HashMap.getElem?_insert]

include ht hsmall in
lemma Tracks.step (c : Call) : (h.step c).Tracks := by
  have hle := ht.le_counter
  have hmem := ht.counter_mem
  cases c with
  | update gtid strict =>
    rw [History.step, Domains.update]
    cases helem : h.state[gtid.domainId]? with
    | some elem =>
      by_cases hstrict : (strict && h.state.checkStrictSequence gtid.domainId gtid.seqNo) = true
      · simpa [hstrict] using ht
      · simp only [if_neg hstrict, Domain.updateElement_eq, Domain.raise_eq]
        refine ht.record _ (by simp [Domains.find, helem]) ?_ ?_ ?_ <;> grind
    | none => refine ht.record ∅ (by simp [Domains.find, helem]) ?_ ?_ ?_ <;> grind
  | updateWithNextGtid d s =>
    have hnext := ht.lt_next hsmall d s
    simp only [History.step, updateWithNextGtid] at hnext ⊢
    cases helem : h.state[d]? with
    | some elem =>
      simp only [helem, Domain.updateElement_eq] at hnext ⊢
      refine ht.record _ (by simp [Domains.find, helem]) ?_ ?_ ?_ <;> grind
    | none => refine ht.record ∅ (by simp [Domains.find, helem]) ?_ ?_ ?_ <;> grind
  | bumpSeqNoIfNeeded d seqNo =>
    have hfind := ht.find d
    have hlast := ht.last d
    simp only [History.step, bumpSeqNoIfNeeded, Domains.find, lastGtid] at hfind hlast ⊢
    cases helem : h.state[d]? with
    | some elem =>
      simp only [helem, Domain.raise_eq] at hfind hlast ⊢
      exact ht.insert (.inl rfl) hfind hlast (by grind) (by grind)
    | none =>
      simp only [helem] at hfind hlast
      exact ht.insert (.inl rfl) (by simpa using hfind) hlast (by grind) (by grind)

lemma Increasing.le_last (hi : h.Increasing)
    (hlast : h.recorded.find? (·.domainId = d) = some last) :
    ∀ g ∈ h.recorded, g.domainId = d → g.seqNo ≤ last.seqNo := by
  rw [Increasing] at hi
  generalize h.recorded = recorded at *
  induction hi with
  | nil => simp
  | cons => grind

include ht hsmall in
lemma Increasing.step (hi : h.Increasing) (hc : ∀ gtid, c ≠ .update gtid false) :
    (h.step c).Increasing := by
  cases c with
  | update gtid strict =>
    obtain rfl : strict = true := by grind
    rw [History.step]
    dsimp only
    split_ifs with herror
    · exact hi
    · refine pairwise_cons.mpr ⟨fun g hg hd => ?_, hi⟩
      rw [update_fst, Bool.true_and, checkStrictSequence, ht.last] at herror
      cases hlast : h.recorded.find? (·.domainId = gtid.domainId) with
      | none => simpa [hd] using find?_eq_none.mp hlast g hg
      | some last =>
        have hle := hi.le_last hlast g hg hd.symm
        grind
  | updateWithNextGtid d s =>
    refine pairwise_cons.mpr ⟨fun g hg hd => ht.lt_next hsmall d s _ ?_, hi⟩
    have := ht.mem_numbers g hg
    grind [updateWithNextGtid]
  | bumpSeqNoIfNeeded d seqNo => exact hi

theorem run_correct (calls : List Call)
    (hsmall : ∀ d n, (d, n) ∈ (run calls).numbers → n < 2 ^ 64 - 1) :
    (run calls).Correct ∧ ((∀ gtid, .update gtid false ∉ calls) → (run calls).Increasing) := by
  have hrun : (run calls).Tracks ∧
      ((∀ gtid, .update gtid false ∉ calls) → (run calls).Increasing) := by
    induction calls using reverseRecOn with
    | nil =>
      refine ⟨⟨?_, ?_, ?_, ?_, ?_⟩, fun _ => Pairwise.nil⟩ <;>
        simp [run, Domains.find, lastGtid]
    | append_singleton calls c ih =>
      rw [run, foldl_append, ← run] at hsmall ⊢
      have hold : ∀ d n, (d, n) ∈ (run calls).numbers → n < 2 ^ 64 - 1 :=
        fun d n hn => hsmall d n (by cases c <;> grind [step])
      obtain ⟨ht, hi⟩ := ih hold
      exact ⟨ht.step hold c, fun hc => (hi (by grind)).step ht hold (by grind)⟩
  refine ⟨⟨hrun.1, hrun.1.lt_next hsmall, fun gtid strict => ?_, fun _ _ => update_snd⟩, hrun.2⟩
  rw [update_fst, Bool.and_eq_true, checkStrictSequence, Option.any_eq_true]
  simp

def strictThenNext : List Call := [.update ⟨0, 1, 5⟩ true, .updateWithNextGtid 0 2]

theorem run_correct_strictThenNext : (run strictThenNext).Correct ∧
    ((∀ gtid, .update gtid false ∉ strictThenNext) → (run strictThenNext).Increasing) := by
  refine run_correct strictThenNext fun d n hn => ?_
  simp only [run, strictThenNext, foldl_cons, foldl_nil, step,
    Domains.update, updateWithNextGtid] at hn
  simp at hn
  grind [Domain.alloc]

end History

/-! ### Dropping domains -/

def cantDelete (domainId : Nat) : String :=
  "binlog files may contain gtids from the domain ('" ++ toString domainId ++
    "') being deleted. Make sure to first purge those files"

def differs (init : Domains) (id : Nat) (elem : Domain) : Bool :=
  elem.hash.toList.any fun (serverId, seqNo) => init.find id serverId ≠ some seqNo

/-- The first pass: the domains to remove, or an error. -/
def checkDomains (st init : Domains) : List Nat → List Nat → Except String (List Nat)
  | [], unique => .ok unique
  | id :: ids, unique =>
    match st[id]? with
    | none => checkDomains st init ids unique
    | some elem =>
      if init.differs id elem then .error (cantDelete id)
      else checkDomains st init ids (if id ∈ unique then unique else unique ++ [id])

def dropDomain (st init : Domains) (ids : List Nat) : Option String × Domains :=
  match checkDomains st init ids [] with
  | .error errmsg => (some errmsg, st)
  | .ok unique => (if unique = [] then some "" else none, unique.foldl (·.erase ·) st)

def IsInitial (st init : Domains) (id : Nat) : Prop :=
  ∀ elem, st[id]? = some elem → ∀ serverId seqNo, elem.hash[serverId]? = some seqNo →
    init.find id serverId = some seqNo

variable {st init : Domains} {ids : List Nat}

lemma isInitial_iff {id : Nat} {elem : Domain} (h : st[id]? = some elem) :
    IsInitial st init id ↔ init.differs id elem = false := by
  simp [IsInitial, differs, h, Std.HashMap.mem_toList_iff_getElem?_eq_some]

lemma checkDomains_spec (st init : Domains) (ids unique : List Nat) :
    (∃ id ∈ ids, ¬IsInitial st init id ∧ checkDomains st init ids unique = .error (cantDelete id)) ∨
    (∀ id ∈ ids, IsInitial st init id) ∧ ∃ unique', checkDomains st init ids unique = .ok unique' ∧
      ∀ d, d ∈ unique' ↔ d ∈ unique ∨ d ∈ ids ∧ d ∈ st := by
  induction ids generalizing unique with
  | nil => simp [checkDomains]
  | cons id ids ih =>
    simp only [checkDomains]
    cases helem : st[id]? with
    | none =>
      have hno : id ∉ st := by simpa using helem
      have hinit : IsInitial st init id := by simp [IsInitial, helem]
      have := ih unique
      grind
    | some elem =>
      have hin : id ∈ st := Std.HashMap.mem_iff_isSome_getElem?.mpr (by simp [helem])
      have hinit : IsInitial st init id ↔ _ := isInitial_iff helem
      cases hdiff : init.differs id elem with
      | true => exact .inl ⟨id, mem_cons_self, by simp [hinit, hdiff], by simp [hdiff]⟩
      | false =>
        have hmem : ∀ d, d ∈ (if id ∈ unique then unique else unique ++ [id]) ↔
            d ∈ unique ∨ d = id := by grind
        have := ih (if id ∈ unique then unique else unique ++ [id])
        grind

lemma getElem?_foldl_erase (unique : List Nat) (d : Nat) :
    (unique.foldl (·.erase ·) st)[d]? = if d ∈ unique then none else st[d]? := by
  induction unique generalizing st with
  | nil => simp
  | cons id unique ih => grind

theorem dropDomain_spec (st init : Domains) (ids : List Nat) :
    ((dropDomain st init ids).1 = none → (∀ id ∈ ids, IsInitial st init id) ∧
      ∀ d, (dropDomain st init ids).2[d]? = if d ∈ ids then none else st[d]?) ∧
    ((∃ id ∈ ids, (dropDomain st init ids).1 = some (cantDelete id)) ↔
      ∃ id ∈ ids, ¬IsInitial st init id) ∧
    ((dropDomain st init ids).1 = some "" ↔ ∀ id ∈ ids, id ∉ st) ∧
    ((dropDomain st init ids).1 ≠ none → (dropDomain st init ids).2 = st) := by
  have hempty : ∀ id, cantDelete id ≠ "" := by
    intro id h
    exact absurd (String.append_eq_empty_iff.mp h).2 (by decide)
  rcases checkDomains_spec st init ids [] with
    ⟨id, hid, hbad, heq⟩ | ⟨hinit, unique, heq, hunique⟩
  · have hin : id ∈ st := by
      by_contra hno
      exact hbad (by simp [IsInitial, hno])
    simp only [dropDomain, heq]
    grind
  · have hnil : unique = [] ↔ ∀ id ∈ ids, id ∉ st := by simp [eq_nil_iff_forall_not_mem, hunique]
    have hdrop : ∀ d, (unique.foldl (·.erase ·) st)[d]? = if d ∈ ids then none else st[d]? := by
      intro d
      rw [getElem?_foldl_erase]
      grind
    simp only [dropDomain, heq]
    by_cases h : unique = []
    · grind
    · grind

end Domains

end MariaDB.Rpl
