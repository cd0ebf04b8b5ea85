import MoshClient.Fragment.Transport
import MoshClient.Library.History
import Mathlib.Data.List.Chain
import Mathlib.Data.List.Induction

namespace MoshModel

structure FragmentCall where
  inst : TransportInstruction
  mtu : Nat
deriving DecidableEq

/-- The call gets past the MTU check, and so into the fragmenter's memory of the last header. -/
def FragmentCall.recorded (call : FragmentCall) : Bool := fragHeaderLen < call.mtu

/-- A call of `make_fragments` with the fragments it returned, none when it failed. -/
structure Sending where
  call : FragmentCall
  fragments : List Fragment
deriving DecidableEq

namespace Fragmenter

def send (zlib : Zlib) (fragmenter : Fragmenter) (call : FragmentCall) : Sending × Fragmenter :=
  match fragmenter.makeFragments zlib call.inst call.mtu with
  | (.ok fragments, after) => ({ call := call, fragments := fragments }, after)
  | (.error _, after) => ({ call := call, fragments := [] }, after)

/-- A sequence of calls on one fragmenter: what each returned, and the fragmenter at the end. -/
def sendAll (zlib : Zlib) (calls : List FragmentCall) : List Sending × Fragmenter :=
  calls.foldl (fun run call =>
    (run.1 ++ [(run.2.send zlib call).1], (run.2.send zlib call).2)) ([], default)

theorem sendAll_append (zlib : Zlib) (calls : List FragmentCall) (call : FragmentCall) :
    sendAll zlib (calls ++ [call]) =
      ((sendAll zlib calls).1 ++ [((sendAll zlib calls).2.send zlib call).1],
        ((sendAll zlib calls).2.send zlib call).2) := by
  simp [sendAll, List.foldl_append]

/-- Consecutive recorded calls with the same header carry the same diff. -/
def Steady (calls : List FragmentCall) : Prop :=
  (calls.filter FragmentCall.recorded).IsChain fun earlier later =>
    earlier.inst.header = later.inst.header → earlier.inst.diff = later.inst.diff

end Fragmenter

theorem TransportInstruction.eq_of_header {left right : TransportInstruction}
    (header : left.header = right.header) (diff : left.diff = right.diff) : left = right := by
  simp only [TransportInstruction.header, FragmentHeader.mk.injEq] at header
  obtain ⟨version, old, new, ack, throwaway, chaff⟩ := header
  exact TransportInstruction.ext version old new ack throwaway diff chaff

/-- A full set of fragments of one payload, in index order. -/
structure WholeSet (id : Nat) (payload : Bytes) (fragments : List Fragment) : Prop where
  nonempty : fragments ≠ []
  ids : ∀ frag ∈ fragments, frag.id = id
  numbered : ∀ index (bound : index < fragments.length), fragments[index].fragmentNum = index
  final : ∀ index (bound : index < fragments.length),
    fragments[index].final = true ↔ index + 1 = fragments.length
  contents : fragments.flatMap Fragment.contents = payload

namespace Fragmenter

theorem sliceFrom_spec (id mtu index : Nat) (rest : Bytes) (fragments : List Fragment)
    (sliced : sliceFrom id mtu index rest = .ok fragments) :
    fragments ≠ [] ∧ (∀ frag ∈ fragments, frag.id = id) ∧
      (∀ offset (bound : offset < fragments.length),
        fragments[offset].fragmentNum = index + offset ∧
          (fragments[offset].final = true ↔ offset + 1 = fragments.length)) ∧
      fragments.flatMap Fragment.contents = rest := by
  induction index, rest using sliceFrom.induct mtu generalizing fragments with
  | case1 index rest beyond =>
    rw [sliceFrom, if_pos beyond] at sliced
    cases sliced
  | case2 index rest within more ih =>
    rw [sliceFrom, if_neg within, if_pos more] at sliced
    cases tail : sliceFrom id mtu (index + 1) (rest.drop mtu) with
    | error e =>
      rw [tail] at sliced
      cases sliced
    | ok others =>
      rw [tail] at sliced
      cases sliced
      obtain ⟨nonempty, ids, places, contents⟩ := ih others tail
      refine ⟨by simp, ?_, ?_, ?_⟩
      · intro frag member
        rcases List.mem_cons.mp member with rfl | member
        · rfl
        · exact ids frag member
      · intro offset bound
        cases offset with
        | zero =>
          have some_left := List.length_pos_iff.mpr nonempty
          simp only [List.getElem_cons_zero, Nat.add_zero, Bool.false_eq_true, List.length_cons, true_and,
            false_iff]
          omega
        | succ offset =>
          obtain ⟨number, last⟩ := places offset (by simpa using bound)
          simp only [List.getElem_cons_succ, List.length_cons]
          exact ⟨by omega, by rw [last]; omega⟩
      · simp only [List.flatMap_cons, contents, List.take_append_drop]
  | case3 index rest within enough =>
    rw [sliceFrom, if_neg within, if_neg enough] at sliced
    cases sliced
    refine ⟨by simp, by simp, ?_, by simp⟩
    intro offset bound
    obtain rfl : offset = 0 := by simpa using bound
    simp

theorem sliceFrom_wholeSet (id mtu : Nat) (payload : Bytes) (fragments : List Fragment)
    (sliced : sliceFrom id mtu 0 payload = .ok fragments) : WholeSet id payload fragments := by
  obtain ⟨nonempty, ids, places, contents⟩ := sliceFrom_spec id mtu 0 payload fragments sliced
  exact ⟨nonempty, ids, fun index bound => by rw [(places index bound).1, Nat.zero_add],
    fun index bound => (places index bound).2, contents⟩

def nextId (fragmenter : Fragmenter) (call : FragmentCall) : Nat :=
  if fragmenter.lastHeader ≠ some call.inst.header ∨ fragmenter.lastMtu ≠ call.mtu - fragHeaderLen
    then fragmenter.nextInstructionId + 1 else fragmenter.nextInstructionId

theorem makeFragments_refused (zlib : Zlib) (fragmenter : Fragmenter) (inst : TransportInstruction) {mtu : Nat}
    (small : mtu ≤ fragHeaderLen) : fragmenter.makeFragments zlib inst mtu = (.error .mtuTooSmall, fragmenter) := by
  rw [makeFragments, if_pos (Nat.sub_eq_zero_of_le small)]

theorem makeFragments_eq (zlib : Zlib) (fragmenter : Fragmenter) (inst : TransportInstruction) {mtu : Nat}
    (room : fragHeaderLen < mtu) :
    fragmenter.makeFragments zlib inst mtu =
      (sliceFrom (fragmenter.nextId ⟨inst, mtu⟩) (mtu - fragHeaderLen) 0 (zlibCompress zlib inst.encode),
        { nextInstructionId := fragmenter.nextId ⟨inst, mtu⟩, lastHeader := some inst.header,
          lastMtu := mtu - fragHeaderLen }) := by
  rw [makeFragments, if_neg (Nat.sub_ne_zero_of_lt room)]
  rfl

theorem send_refused (zlib : Zlib) (fragmenter : Fragmenter) (call : FragmentCall)
    (refused : call.recorded = false) :
    fragmenter.send zlib call = ({ call := call, fragments := [] }, fragmenter) := by
  have small : call.mtu ≤ fragHeaderLen := by
    simpa only [FragmentCall.recorded, decide_eq_false_iff_not, Nat.not_lt] using refused
  rw [send, makeFragments_refused zlib fragmenter call.inst small]

theorem send_recorded (zlib : Zlib) (fragmenter : Fragmenter) (call : FragmentCall)
    (recorded : call.recorded = true) :
    (fragmenter.send zlib call).2 =
        { nextInstructionId := fragmenter.nextId call, lastHeader := some call.inst.header,
          lastMtu := call.mtu - fragHeaderLen } ∧
      ((fragmenter.send zlib call).1.fragments = [] ∨
        sliceFrom (fragmenter.nextId call) (call.mtu - fragHeaderLen) 0
          (zlibCompress zlib call.inst.encode) = .ok (fragmenter.send zlib call).1.fragments) := by
  have room : fragHeaderLen < call.mtu := by
    simpa only [FragmentCall.recorded, decide_eq_true_eq] using recorded
  rw [send, makeFragments_eq zlib fragmenter call.inst room]
  cases sliced : sliceFrom (fragmenter.nextId call) (call.mtu - fragHeaderLen) 0
    (zlibCompress zlib call.inst.encode) with
  | error e => exact ⟨rfl, .inl rfl⟩
  | ok fragments => exact ⟨rfl, .inr rfl⟩

theorem send_call (zlib : Zlib) (fragmenter : Fragmenter) (call : FragmentCall) :
    (fragmenter.send zlib call).1.call = call := by
  unfold send
  split <;> rfl

theorem send_cut (zlib : Zlib) (fragmenter : Fragmenter) {call : FragmentCall} (counted : call.recorded = true)
    {frag : Fragment} (piece : frag ∈ (fragmenter.send zlib call).1.fragments) :
    frag.id = fragmenter.nextId call ∧
      sliceFrom (fragmenter.nextId call) (call.mtu - fragHeaderLen) 0 (zlibCompress zlib call.inst.encode) =
        .ok (fragmenter.send zlib call).1.fragments := by
  rcases (send_recorded zlib fragmenter call counted).2 with empty | sliced
  · rw [empty] at piece
    cases piece
  · exact ⟨(sliceFrom_wholeSet _ _ _ _ sliced).ids frag piece, sliced⟩

theorem nextId_ge (fragmenter : Fragmenter) (call : FragmentCall) :
    fragmenter.nextInstructionId ≤ fragmenter.nextId call := by
  unfold nextId
  split <;> omega

/-- What a sequence of calls leaves behind: ids in order, and one instruction, cut one way, to an id. -/
structure Consistent (zlib : Zlib) (recorded : List FragmentCall) (sendings : List Sending)
    (fragmenter : Fragmenter) : Prop where
  bounded : ∀ sending ∈ sendings, ∀ frag ∈ sending.fragments, frag.id ≤ fragmenter.nextInstructionId
  ordered : (sendings.flatMap Sending.fragments).Pairwise fun earlier later => earlier.id ≤ later.id
  fresh : recorded = [] → fragmenter.lastHeader = none
  last : ∀ call ∈ recorded.getLast?, fragmenter.lastHeader = some call.inst.header ∧
    fragmenter.lastMtu = call.mtu - fragHeaderLen
  current : ∀ sending ∈ sendings, ∀ frag ∈ sending.fragments, frag.id = fragmenter.nextInstructionId →
    ∃ call ∈ recorded.getLast?, sending.call.inst = call.inst ∧
      sending.call.mtu - fragHeaderLen = call.mtu - fragHeaderLen
  same : ∀ left ∈ sendings, ∀ right ∈ sendings, ∀ first ∈ left.fragments, ∀ second ∈ right.fragments,
    first.id = second.id → left.call.inst = right.call.inst ∧ left.fragments = right.fragments
  sliced : ∀ sending ∈ sendings, ∀ frag ∈ sending.fragments,
    sliceFrom frag.id (sending.call.mtu - fragHeaderLen) 0 (zlibCompress zlib sending.call.inst.encode) =
      .ok sending.fragments

theorem Consistent.refused {zlib : Zlib} {recorded : List FragmentCall} {sendings : List Sending}
    {fragmenter : Fragmenter} (consistent : Consistent zlib recorded sendings fragmenter)
    (call : FragmentCall) :
    Consistent zlib recorded (sendings ++ [{ call := call, fragments := [] }]) fragmenter := by
  have old : ∀ sending ∈ sendings ++ [{ call := call, fragments := [] }], sending.fragments ≠ [] →
      sending ∈ sendings := by
    intro sending member nonempty
    rcases History.mem_snoc.mp member with member | rfl
    · exact member
    · exact absurd rfl nonempty
  refine ⟨?_, ?_, consistent.fresh, consistent.last, ?_, ?_, ?_⟩
  · intro sending member frag piece
    exact consistent.bounded sending (old sending member (List.ne_nil_of_mem piece)) frag piece
  · simpa using consistent.ordered
  · intro sending member frag piece
    exact consistent.current sending (old sending member (List.ne_nil_of_mem piece)) frag piece
  · intro left leftMember right rightMember first firstPiece second secondPiece
    exact consistent.same left (old left leftMember (List.ne_nil_of_mem firstPiece)) right
      (old right rightMember (List.ne_nil_of_mem secondPiece)) first firstPiece second secondPiece
  · intro sending member frag piece
    exact consistent.sliced sending (old sending member (List.ne_nil_of_mem piece)) frag piece

theorem Consistent.kept {zlib : Zlib} {recorded : List FragmentCall} {sendings : List Sending}
    {fragmenter : Fragmenter} (consistent : Consistent zlib recorded sendings fragmenter)
    (call : FragmentCall)
    (steady : ∀ earlier ∈ recorded.getLast?, earlier.inst.header = call.inst.header →
      earlier.inst.diff = call.inst.diff)
    (kept : fragmenter.nextId call = fragmenter.nextInstructionId) :
    ∃ earlier ∈ recorded.getLast?, earlier.inst = call.inst ∧
      earlier.mtu - fragHeaderLen = call.mtu - fragHeaderLen := by
  have unchanged : fragmenter.lastHeader = some call.inst.header ∧
      fragmenter.lastMtu = call.mtu - fragHeaderLen := by
    unfold nextId at kept
    split at kept
    · omega
    · rename_i same
      simpa only [not_or, ne_eq, not_not] using same
  cases found : recorded.getLast? with
  | none =>
    rw [consistent.fresh (List.getLast?_eq_none_iff.mp found)] at unchanged
    cases unchanged.1
  | some earlier =>
    obtain ⟨header, budget⟩ := consistent.last earlier found
    have headers : earlier.inst.header = call.inst.header :=
      Option.some.inj (header.symm.trans unchanged.1)
    exact ⟨earlier, rfl, TransportInstruction.eq_of_header headers (steady earlier found headers),
      budget.symm.trans unchanged.2⟩

theorem Consistent.shared {zlib : Zlib} {recorded : List FragmentCall} {sendings : List Sending}
    {fragmenter : Fragmenter} (consistent : Consistent zlib recorded sendings fragmenter)
    (call : FragmentCall)
    (steady : ∀ earlier ∈ recorded.getLast?, earlier.inst.header = call.inst.header →
      earlier.inst.diff = call.inst.diff)
    (older : Sending) (member : older ∈ sendings) (frag : Fragment) (piece : frag ∈ older.fragments)
    (same : frag.id = fragmenter.nextId call) :
    older.call.inst = call.inst ∧ older.call.mtu - fragHeaderLen = call.mtu - fragHeaderLen := by
  have bound := consistent.bounded older member frag piece
  have grows := fragmenter.nextId_ge call
  obtain ⟨earlier, found, inst, budget⟩ := consistent.kept call steady (by omega)
  obtain ⟨latest, foundLatest, instLatest, budgetLatest⟩ :=
    consistent.current older member frag piece (by omega)
  obtain rfl : earlier = latest := Option.some.inj (found.symm.trans foundLatest)
  exact ⟨instLatest.trans inst, budgetLatest.trans budget⟩

theorem Consistent.alike {zlib : Zlib} {recorded : List FragmentCall} {sendings : List Sending}
    {fragmenter : Fragmenter} (consistent : Consistent zlib recorded sendings fragmenter)
    {call : FragmentCall} (counted : call.recorded = true)
    (steady : ∀ earlier ∈ recorded.getLast?, earlier.inst.header = call.inst.header →
      earlier.inst.diff = call.inst.diff)
    {older : Sending} (member : older ∈ sendings) {frag piece : Fragment} (ours : frag ∈ older.fragments)
    (theirs : piece ∈ (fragmenter.send zlib call).1.fragments) (same : frag.id = piece.id) :
    older.call.inst = call.inst ∧ older.fragments = (fragmenter.send zlib call).1.fragments := by
  obtain ⟨id, cut⟩ := send_cut zlib fragmenter counted theirs
  have under : frag.id = fragmenter.nextId call := same.trans id
  obtain ⟨inst, budget⟩ := consistent.shared call steady older member frag ours under
  have sliced := consistent.sliced older member frag ours
  rw [under, budget, inst, cut] at sliced
  exact ⟨inst, (Except.ok.inj sliced).symm⟩

theorem Consistent.recorded {zlib : Zlib} {recorded : List FragmentCall} {sendings : List Sending}
    {fragmenter : Fragmenter} (consistent : Consistent zlib recorded sendings fragmenter)
    (call : FragmentCall) (counted : call.recorded = true)
    (steady : ∀ earlier ∈ recorded.getLast?, earlier.inst.header = call.inst.header →
      earlier.inst.diff = call.inst.diff) :
    Consistent zlib (recorded ++ [call]) (sendings ++ [(fragmenter.send zlib call).1])
      (fragmenter.send zlib call).2 := by
  have named := send_call zlib fragmenter call
  have new_id : ∀ frag ∈ (fragmenter.send zlib call).1.fragments, frag.id = fragmenter.nextId call :=
    fun frag piece => (send_cut zlib fragmenter counted piece).1
  have grows := fragmenter.nextId_ge call
  rw [(send_recorded zlib fragmenter call counted).1]
  refine ⟨?_, ?_, by simp, ?_, ?_, ?_, ?_⟩
  · intro other member frag piece
    rcases History.mem_snoc.mp member with member | rfl
    · exact Nat.le_trans (consistent.bounded other member frag piece) grows
    · exact Nat.le_of_eq (new_id frag piece)
  · rw [List.flatMap_append, List.pairwise_append]
    refine ⟨consistent.ordered, ?_, ?_⟩
    · rw [List.flatMap_singleton]
      refine List.pairwise_of_forall_mem_list fun first firstMember second secondMember => ?_
      rw [new_id first firstMember, new_id second secondMember]
    · intro first firstMember second secondMember
      rw [List.flatMap_singleton] at secondMember
      obtain ⟨older, member, piece⟩ := List.mem_flatMap.mp firstMember
      have bound := consistent.bounded older member first piece
      rw [new_id second secondMember]
      omega
  · intro last found
    obtain rfl : call = last := by simpa using found
    exact ⟨rfl, rfl⟩
  · intro other member frag piece same
    refine ⟨call, by simp, ?_⟩
    rcases History.mem_snoc.mp member with member | rfl
    · exact consistent.shared call steady other member frag piece same
    · rw [named]
      exact ⟨rfl, rfl⟩
  · intro left leftMember right rightMember first firstPiece second secondPiece same
    rcases History.mem_snoc.mp leftMember with leftOld | rfl
    · rcases History.mem_snoc.mp rightMember with rightOld | rfl
      · exact consistent.same left leftOld right rightOld first firstPiece second secondPiece same
      · rw [named]
        exact consistent.alike counted steady leftOld firstPiece secondPiece same
    · rcases History.mem_snoc.mp rightMember with rightOld | rfl
      · obtain ⟨inst, fragments⟩ := consistent.alike counted steady rightOld secondPiece firstPiece same.symm
        exact ⟨by rw [named, inst], fragments.symm⟩
      · exact ⟨rfl, rfl⟩
  · intro other member frag piece
    rcases History.mem_snoc.mp member with member | rfl
    · exact consistent.sliced other member frag piece
    · rw [new_id frag piece, named]
      exact (send_cut zlib fragmenter counted piece).2

theorem steady_append (calls : List FragmentCall) (call : FragmentCall) :
    Steady (calls ++ [call]) ↔ Steady calls ∧ (call.recorded = true →
      ∀ earlier ∈ (calls.filter FragmentCall.recorded).getLast?,
        earlier.inst.header = call.inst.header → earlier.inst.diff = call.inst.diff) := by
  unfold Steady
  rw [List.filter_append]
  by_cases counted : call.recorded = true
  · rw [List.filter_cons_of_pos counted, List.filter_nil, List.isChain_append]
    simp [counted]
  · rw [List.filter_cons_of_neg counted, List.filter_nil, List.append_nil]
    simp [counted]

theorem sendAll_consistent (zlib : Zlib) (calls : List FragmentCall) (steady : Steady calls) :
    Consistent zlib (calls.filter FragmentCall.recorded) (sendAll zlib calls).1 (sendAll zlib calls).2 := by
  induction calls using List.reverseRecOn with
  | nil => exact ⟨by simp [sendAll], by simp [sendAll], by simp [sendAll, default], by simp, by simp [sendAll],
      by simp [sendAll], by simp [sendAll]⟩
  | append_singleton calls call ih =>
    obtain ⟨before, link⟩ := (steady_append calls call).mp steady
    have consistent := ih before
    rw [sendAll_append, List.filter_append]
    by_cases counted : call.recorded = true
    · rw [List.filter_cons_of_pos counted, List.filter_nil]
      exact consistent.recorded call counted (link counted)
    · rw [List.filter_cons_of_neg counted, List.filter_nil, List.append_nil,
        send_refused zlib _ call (Bool.eq_false_iff.mpr counted)]
      exact consistent.refused call

end Fragmenter

end MoshModel
