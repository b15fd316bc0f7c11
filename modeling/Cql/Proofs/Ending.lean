import Cql.Proofs.Told

/-!
# The end of a cursor

A cursor is finished by the read that tells its end and by nothing else.  When that read stops there
is neither a row nor a further page, so nothing is left of a finished cursor (`Spent`), and nothing
happens to it any more.  `Acts.finished_iff` and `Acts.spent` say this of one call, and
`calls_finished` of all calls after the end; `end_told_once` follows a cursor from its opening.

On the last page `advance` has nowhere to go.  It says so as often as it is called and leaves the
end to the reads.
-/

namespace Cql.Cursor

/-- a finished cursor has neither rows nor a further page -/
def Spent (c : Cursor) : Prop := c.finished → c.buffer = [] ∧ c.pagingState = none

section
variable {c : Cursor} {s : Session} {op : CursorOp} {k : CursorCall}

theorem spent_of_unfinished (h : c.finished = false) : c.Spent := by
  intro hf
  rw [h] at hf
  cases hf

theorem Spent.currentPage (h : c.Spent) (hf : c.finished) : c.currentPage = .ok [] := by
  rw [Cursor.currentPage, (h hf).1]
  rfl

/-- among the answers to what a read has seen, the end comes from the end -/
theorem look_eq_none_iff {r : CursorOp.Reading} (hr : op.reading? = some r)
    {columns : List ColumnSpec} {x : Outcome (Option RawRow)} :
    (look r.through columns x).map r.answer = .ok (r.answer none) ↔ x = .ok none := by
  obtain e | _ | raw := x
  · simp [look]
  · simp [look]
  · cases hrow : r.through columns raw with
    | error e => simp [look, hrow]
    | ok a => simp [look, hrow, answer_eq_none_iff hr]

/-! ## one call -/

theorem not_ends_of_reading (h : k.op.reading? = none) : ¬ k.Ends := by
  intro he
  obtain ⟨r, hr, -⟩ := he
  rw [h] at hr
  cases hr

theorem not_ends_of_error {e : Error} (h : k.answer = .error e) : ¬ k.Ends := by
  intro he
  obtain ⟨r, -, ha⟩ := he
  rw [h] at ha
  cases ha

/-- a cursor is finished after a call if it was before, or if the call has told the end -/
theorem Acts.finished_iff (h : Acts c s op k) : k.after.1.finished ↔ c.finished ∨ k.Ends := by
  cases h with
  | refused _ hf => simp [hf]
  | @reads _ r as x hr hf h =>
    have hends : CursorCall.Ends ⟨op, (c, s), (look r.through x.2.1.columns x.1).map r.answer, x.2⟩ ↔
        x.1 = .ok none := by
      refine ⟨?_, fun hx => ⟨r, hr, (look_eq_none_iff hr).2 hx⟩⟩
      intro he
      obtain ⟨r', hr', ha⟩ := he
      obtain rfl := Option.some.inj (hr.symm.trans hr')
      exact (look_eq_none_iff hr).1 ha
    rw [hends, hf, ← h.finished_iff hf]
    simp
  | advances hf =>
    have hr : (c.receive s.reply).finished = c.finished := by
      cases s.reply <;> rfl
    rw [hr]
    exact (or_iff_left (not_ends_of_reading rfl)).symm
  | stays => exact (or_iff_left (not_ends_of_reading rfl)).symm
  | looks => exact (or_iff_left (not_ends_of_reading rfl)).symm

theorem Acts.spent (h : Acts c s op k) (hc : c.Spent) : k.after.1.Spent := by
  intro hk
  cases h with
  | refused | stays | looks => exact hc hk
  | reads hr hf h =>
    obtain ⟨hb, hp, -⟩ := h.of_none ((h.finished_iff hf).1 hk)
    exact ⟨hb, hp⟩
  | advances hf =>
    have hr : (c.receive s.reply).finished = false := by
      rw [← hf]
      cases s.reply <;> rfl
    rw [hr] at hk
    cases hk

theorem call_finished (hf : c.finished) (op : CursorOp) :
    call (c, s) op = ⟨op, (c, s), (call (c, s) op).answer, (c, s)⟩ ∧
      (op ≠ .currentPage → (call (c, s) op).answer = .error .cursorExhausted) := by
  by_cases hop : op = .currentPage
  · subst hop
    exact ⟨rfl, fun h => absurd rfl h⟩
  · rw [call_refused hf hop]
    exact ⟨rfl, fun _ => rfl⟩

/-- on the last page `advance` answers no and stays -/
theorem call_advance_last (hf : c.finished = false) (hm : c.hasMore = false) :
    call (c, s) .advance = ⟨.advance, (c, s), .ok (.advanced false), (c, s)⟩ := by
  simp [call, perform, answering, advance, hf, hm]

end

/-! ## any calls -/

section
variable {x : Cursor × Session}

theorem afterCalls_spent (hx : x.1.Spent) (ops : List CursorOp) : (afterCalls x ops).1.Spent := by
  induction ops generalizing x with
  | nil => exact hx
  | cons op ops ih => exact ih ((acts_call x.1 x.2 op).spent hx)

theorem calls_finished_iff (x : Cursor × Session) (ops : List CursorOp) :
    ∀ k ∈ calls x ops, k.after.1.finished ↔ k.before.1.finished ∨ k.Ends := by
  induction ops generalizing x with
  | nil => exact fun _ hk => nomatch hk
  | cons op ops ih => exact List.forall_mem_cons.2 ⟨(acts_call x.1 x.2 op).finished_iff, ih _⟩

/-- nothing happens to a finished cursor -/
theorem calls_finished (hf : x.1.finished) (ops : List CursorOp) :
    ∀ k ∈ calls x ops, k.before = x ∧ k.after = x ∧
      (k.op ≠ .currentPage → k.answer = .error .cursorExhausted) := by
  induction ops with
  | nil => exact fun _ hk => nomatch hk
  | cons op ops ih =>
    obtain ⟨hcall, hrefused⟩ := call_finished (s := x.2) hf op
    have hafter : (call x op).after = x := congrArg CursorCall.after hcall
    rw [calls, hafter]
    exact List.forall_mem_cons.2 ⟨⟨rfl, hafter, hrefused⟩, ih⟩

theorem calls_advance_last (hf : x.1.finished = false) (hm : x.1.hasMore = false) (n : Nat) :
    calls x (List.replicate n .advance) =
      List.replicate n ⟨.advance, x, .ok (.advanced false), x⟩ := by
  induction n with
  | zero => rfl
  | succ n ih =>
    have hcall : call x .advance = ⟨.advance, x, .ok (.advanced false), x⟩ :=
      call_advance_last hf hm
    rw [List.replicate_succ, calls, hcall, ih, List.replicate_succ]

/-- after the read that told the end all others are refused -/
theorem calls_pairwise_ends (x : Cursor × Session) (ops : List CursorOp) :
    (calls x ops).Pairwise fun k k' => k.Ends →
      ¬ k'.Ends ∧ k'.after = k'.before ∧ k'.asked = [] ∧
        (k'.op ≠ .currentPage → k'.answer = .error .cursorExhausted) := by
  induction ops generalizing x with
  | nil => exact .nil
  | cons op ops ih =>
    refine List.pairwise_cons.2 ⟨?_, ih _⟩
    intro k' hk' hends
    have hf := (acts_call x.1 x.2 op).finished_iff.2 (.inr hends)
    obtain ⟨hbefore, hafter, hrefused⟩ := calls_finished hf ops k' hk'
    refine ⟨?_, hafter.trans hbefore.symm, ?_, hrefused⟩
    · by_cases hop : k'.op = .currentPage
      · exact not_ends_of_reading (by rw [hop]; rfl)
      · exact not_ends_of_error (hrefused hop)
    · rw [CursorCall.asked, hafter, hbefore, Session.asked_self]

end

section
variable {s t : Session} {statement : Statement} {parameters : Parameters} {c : Cursor}

theorem unfinished_of_open (h : s.openCursor (.ok (statement, parameters)) = (.ok c, t)) :
    c.finished = false := by
  rw [Session.openCursor, start, fetch_eq] at h
  cases ha : s.reply with
  | error e =>
    rw [ha] at h
    cases h
  | ok page =>
    rw [ha] at h
    cases h
    rfl

/-- The end is told once and is final.  Only the read that tells it finishes a cursor, of which
nothing is left then; every later read and move is refused and changes nothing.  A move never
finishes a cursor: on the last page it answers no, as often as it is made. -/
theorem end_told_once (h : s.openCursor (.ok (statement, parameters)) = (.ok c, t))
    (ops : List CursorOp) :
    let made := calls (c, t) ops
    let u := afterCalls (c, t) ops
    c.finished = false ∧
    (∀ k ∈ made, k.after.1.finished ↔ k.before.1.finished ∨ k.Ends) ∧
    (u.1.finished → u.1.buffer = [] ∧ u.1.pagingState = none ∧ u.1.hasMore = false ∧
      u.1.currentPage = .ok []) ∧
    made.Pairwise (fun k k' => k.Ends →
      ¬ k'.Ends ∧ k'.after = k'.before ∧ k'.asked = [] ∧
        (k'.op ≠ .currentPage → k'.answer = .error .cursorExhausted)) ∧
    (∀ k ∈ made, k.op = .advance → k.after.1.finished = k.before.1.finished) ∧
    (u.1.finished = false → u.1.hasMore = false → ∀ n,
      calls u (List.replicate n .advance) =
        List.replicate n ⟨.advance, u, .ok (.advanced false), u⟩) := by
  intro made u
  have hc := unfinished_of_open h
  have hu : u.1.Spent := afterCalls_spent (spent_of_unfinished hc) ops
  have hiff := calls_finished_iff (c, t) ops
  refine ⟨hc, hiff, ?_, calls_pairwise_ends _ _, ?_, calls_advance_last⟩
  · intro hf
    obtain ⟨hb, hp⟩ := hu hf
    exact ⟨hb, hp, by rw [hasMore, hp]; rfl, hu.currentPage hf⟩
  · intro k hk hop
    have hends : ¬ k.Ends := not_ends_of_reading (by rw [hop]; rfl)
    rw [Bool.eq_iff_iff, hiff k hk, or_iff_left hends]

/-- a failure, moves on the last page, a last row that does not decode, and calls after the end -/
theorem end_told_once_spoiled :
    let s : Session := .replaying
      [.ok ⟨[⟨"k", .int⟩], some [[some [0, 0, 0, 1]]], some [1], none, []⟩,
        .error (.transport "gone"), .ok ⟨[], some [[some [7]]], none, none, []⟩]
    let ops : List CursorOp :=
      [.nextRow, .advance, .advance, .advance, .nextRow, .advance, .nextScalar, .nextRow, .advance,
        .currentPage, .nextAs .ignored]
    ∃ c t, s.openCursor (.ok (.direct "SELECT k FROM t" none, .empty)) = (.ok c, t) ∧
      let made := calls (c, t) ops
      let u := afterCalls (c, t) ops
      c.finished = false ∧
      (∀ k ∈ made, k.after.1.finished ↔ k.before.1.finished ∨ k.Ends) ∧
      (u.1.finished → u.1.buffer = [] ∧ u.1.pagingState = none ∧ u.1.hasMore = false ∧
        u.1.currentPage = .ok []) ∧
      made.Pairwise (fun k k' => k.Ends →
        ¬ k'.Ends ∧ k'.after = k'.before ∧ k'.asked = [] ∧
          (k'.op ≠ .currentPage → k'.answer = .error .cursorExhausted)) ∧
      (∀ k ∈ made, k.op = .advance → k.after.1.finished = k.before.1.finished) ∧
      (u.1.finished = false → u.1.hasMore = false → ∀ n,
        calls u (List.replicate n .advance) =
          List.replicate n ⟨.advance, u, .ok (.advanced false), u⟩) := by
  intro s ops
  have h : s.openCursor (.ok (.direct "SELECT k FROM t" none, .empty)) = (.ok _, _) := rfl
  exact ⟨_, _, h, end_told_once h ops⟩

end

end Cql.Cursor
