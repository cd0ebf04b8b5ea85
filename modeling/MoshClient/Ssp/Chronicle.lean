import MoshClient.Ssp.SenderSystem
import MoshClient.Library.History

namespace MoshModel

abbrev Numbered := UInt64 × List UserEvent

/-- What the numbers mean: each names one start of what was pushed, the shutdown number all of it, and
    the ones still queued stand in order up to the newest. -/
structure Chronicle (pushed : List UserEvent) (assigned queued : List Numbered) (shutdown : Bool) :
    Prop where
  functional : ∀ left ∈ assigned, ∀ right ∈ assigned, left.1 = right.1 → left.2 = right.2
  prefixes : ∀ entry ∈ assigned, entry.2 <+: pushed
  final : ∀ entry ∈ assigned, entry.1 = shutdownNum → shutdown = true ∧ entry.2 = pushed
  held : ∀ entry ∈ queued, entry ∈ assigned
  ordered : queued.Pairwise fun earlier later => earlier.1 ≤ later.1 ∧ earlier.2 <+: later.2
  newest : ∀ back ∈ queued.getLast?, ∀ entry ∈ assigned, entry.1 ≤ back.1

namespace Chronicle

variable {pushed : List UserEvent} {assigned queued : List Numbered} {shutdown : Bool}

theorem start : Chronicle [] [(0, [])] [(0, [])] false := by
  refine ⟨?_, ?_, ?_, fun _ member => member, List.pairwise_singleton _ _, ?_⟩
  · intro left leftMember right rightMember _
    rw [List.mem_singleton.mp leftMember, List.mem_singleton.mp rightMember]
  · intro entry member
    obtain rfl := List.mem_singleton.mp member
    exact List.prefix_refl _
  · intro entry member last
    rw [List.mem_singleton.mp member] at last
    cases last
  · intro back last entry member
    obtain rfl : (0, []) = back := by simpa using last
    rw [List.mem_singleton.mp member]
    exact UInt64.le_refl _

theorem push (chronicle : Chronicle pushed assigned queued false) (events : List UserEvent) :
    Chronicle (pushed ++ events) assigned queued false := by
  refine ⟨chronicle.functional, ?_, ?_, chronicle.held, chronicle.ordered, chronicle.newest⟩
  · intro entry member
    exact (chronicle.prefixes entry member).trans (List.prefix_append _ _)
  · intro entry member last
    cases (chronicle.final entry member last).1

theorem shut (chronicle : Chronicle pushed assigned queued shutdown) :
    Chronicle pushed assigned queued true :=
  ⟨chronicle.functional, chronicle.prefixes,
    fun entry member last => ⟨rfl, (chronicle.final entry member last).2⟩, chronicle.held,
    chronicle.ordered, chronicle.newest⟩

theorem front_le (chronicle : Chronicle pushed assigned queued shutdown) {front entry : Numbered}
    (head : queued.head? = some front) (member : entry ∈ queued) :
    front.1 ≤ entry.1 ∧ front.2 <+: entry.2 := by
  have order := chronicle.ordered
  cases queued with
  | nil => cases member
  | cons first rest =>
    obtain rfl := Option.some.inj head
    rcases List.mem_cons.mp member with rfl | later
    · exact ⟨UInt64.le_refl _, List.prefix_refl _⟩
    · exact (List.pairwise_cons.mp order).1 entry later

theorem le_back (chronicle : Chronicle pushed assigned queued shutdown) {back entry : Numbered}
    (last : queued.getLast? = some back) (member : entry ∈ queued) : entry.1 ≤ back.1 :=
  chronicle.newest back last entry (chronicle.held entry member)

theorem acknowledge (chronicle : Chronicle pushed assigned queued shutdown) (ack : UInt64) :
    Chronicle pushed assigned (if queued.any fun entry => entry.1 = ack
      then queued.filter fun entry => ack ≤ entry.1 else queued) shutdown := by
  split
  · rename_i known
    refine ⟨chronicle.functional, chronicle.prefixes, chronicle.final, ?_, chronicle.ordered.filter _, ?_⟩
    · intro entry member
      exact chronicle.held entry (List.mem_filter.mp member).1
    · obtain ⟨acked, member, same⟩ := List.any_eq_true.mp known
      cases last : queued.getLast? with
      | none =>
        rw [List.getLast?_eq_none_iff.mp last] at member
        cases member
      | some newest =>
        have reaches := chronicle.le_back last member
        rw [decide_eq_true_eq.mp same] at reaches
        have split := List.dropLast_append_getLast? newest last
        intro back found
        rw [← split, List.filter_append, List.filter_cons_of_pos (by simpa using reaches),
          List.filter_nil, List.getLast?_append] at found
        obtain rfl : newest = back := by simpa using found
        exact chronicle.newest newest last
  · exact chronicle

theorem acknowledged_front (chronicle : Chronicle pushed assigned queued shutdown) {ack : UInt64}
    (known : queued.any fun entry => entry.1 = ack) {front before : Numbered}
    (head : (queued.filter fun entry => ack ≤ entry.1).head? = some front)
    (was : queued.head? = some before) : before.1 ≤ ack ∧ front.1 = ack := by
  obtain ⟨acked, member, same⟩ := List.any_eq_true.mp known
  have num := decide_eq_true_eq.mp same
  have after := chronicle.acknowledge ack
  rw [if_pos known] at after
  have kept : acked ∈ queued.filter fun entry => ack ≤ entry.1 :=
    List.mem_filter.mpr ⟨member, decide_eq_true (num ▸ UInt64.le_refl _)⟩
  have least := (after.front_le head kept).1
  have reaches := (List.mem_filter.mp (List.mem_of_head? head)).2
  refine ⟨num ▸ (chronicle.front_le was member).1, UInt64.le_antisymm (num ▸ least) ?_⟩
  exact decide_eq_true_eq.mp reaches

/-- A number that is at least the newest, and new or already the name of everything pushed. -/
structure Assignable (chronicle : Chronicle pushed assigned queued shutdown) (num : UInt64) : Prop where
  reaches : ∀ back ∈ queued.getLast?, back.1 ≤ num
  agrees : ∀ entry ∈ assigned, entry.1 = num → entry.2 = pushed
  last : num = shutdownNum → shutdown = true

theorem assign (chronicle : Chronicle pushed assigned queued shutdown) {num : UInt64}
    (assignable : chronicle.Assignable num) (some_queued : queued ≠ []) {requeued : List Numbered}
    (sublist : requeued.Sublist queued ∨ requeued.Sublist (queued ++ [(num, pushed)]))
    (back : ∀ back ∈ requeued.getLast?, back.1 = num) :
    Chronicle pushed (assigned ++ [(num, pushed)]) requeued shutdown := by
  have below : ∀ entry ∈ assigned, entry.1 ≤ num := by
    intro entry member
    obtain ⟨newest, last⟩ := Option.ne_none_iff_exists'.mp (mt List.getLast?_eq_none_iff.mp some_queued)
    exact UInt64.le_trans (chronicle.newest newest last entry member) (assignable.reaches newest last)
  have extended : (queued ++ [(num, pushed)]).Pairwise fun earlier later =>
      earlier.1 ≤ later.1 ∧ earlier.2 <+: later.2 := by
    refine History.pairwise_snoc.mpr ⟨chronicle.ordered, fun entry member => ?_⟩
    exact ⟨below entry (chronicle.held entry member), chronicle.prefixes entry (chronicle.held entry member)⟩
  have inside : requeued.Sublist (queued ++ [(num, pushed)]) := by
    rcases sublist with older | newer
    · exact older.trans (List.sublist_append_left _ _)
    · exact newer
  constructor
  · intro left leftMember right rightMember same
    rcases History.mem_snoc.mp leftMember with leftOld | rfl
    · rcases History.mem_snoc.mp rightMember with rightOld | rfl
      · exact chronicle.functional left leftOld right rightOld same
      · exact assignable.agrees left leftOld same
    · rcases History.mem_snoc.mp rightMember with rightOld | rfl
      · exact (assignable.agrees right rightOld same.symm).symm
      · rfl
  · intro entry member
    rcases History.mem_snoc.mp member with old | rfl
    · exact chronicle.prefixes entry old
    · exact List.prefix_refl _
  · intro entry member shut
    rcases History.mem_snoc.mp member with old | rfl
    · exact chronicle.final entry old shut
    · exact ⟨assignable.last shut, rfl⟩
  · intro entry member
    rcases History.mem_snoc.mp (inside.subset member) with old | rfl
    · exact History.mem_snoc.mpr (.inl (chronicle.held entry old))
    · exact History.mem_snoc.mpr (.inr rfl)
  · exact extended.sublist inside
  · intro newest found entry member
    rw [back newest found]
    rcases History.mem_snoc.mp member with old | rfl
    · exact below entry old
    · exact UInt64.le_refl _

end Chronicle

end MoshModel
