import Cql.Cursor.Failures
import Cql.Proofs.Ending

/-!
# Failures in the middle of paging

A request that fails leaves the cursor where it stands, so the next read asks for the same page and
goes on as if nothing had happened.  A read may have gone through pages without rows before it
fails, and then the cursor has moved; but those pages had nothing to tell, and what the cursor has
left to tell of the pages to come (`told` of the `unfailing` session) is still the same.

* `Pulls.failures`     one read against the unfailing session: it fails and tells nothing, or it
                       makes no failing request and tells the first item;
* `reads_undisturbed`  the answers of those reads that met no failure;
* `failures_retried`   two cursors, with and without failures, read by read.
-/

namespace Cql.Cursor

section
variable {α : Type} {f : List ColumnSpec → RawRow → Outcome α} {c : Cursor} {s : Session}
  {as : List (Outcome RawResult)} {x : CursorExchange (Option RawRow)}

/-- a page is told of without failures as it is told of with them -/
theorem told_unfailing_page {page : RawResult} (hb : c.buffer = []) (hm : c.hasMore)
    (hr : s.reply = .ok page) (r : Request) :
    c.told f s.unfailing.queue = (c.absorb page).told f (s.after [r]).unfailing.queue := by
  obtain ⟨hreply, hqueue⟩ := s.unfailing_page hr r
  rw [told_reply hb hm r, hreply, hqueue]

/-- a read fails, and has told nothing of what the pages hold, or no request of it fails, and it
tells the first item -/
theorem Pulls.failures (h : Pulls c s as x) (hf : c.finished = false) :
    (∃ e, failuresOf as = [e] ∧ x.1 = .error e ∧ x.2.1.finished = false ∧
        c.told f s.unfailing.queue = x.2.1.told f x.2.2.unfailing.queue) ∨
      (failuresOf as = [] ∧ c.told f s.unfailing.queue = look f x.2.1.columns x.1 ::
        if x.2.1.finished then [] else x.2.1.told f x.2.2.unfailing.queue) := by
  induction h with
  | row hb =>
    refine .inr ⟨rfl, ?_⟩
    rw [told_row hb, if_neg (by simp [hf])]
    rfl
  | ended hb hm => exact .inr ⟨rfl, told_over hb hm _⟩
  | @failed c s e hb hm hr =>
    refine .inl ⟨e, rfl, rfl, hf, ?_⟩
    rw [s.unfailing_failure hr]
  | @page c s page as x hb hm hr _ ih =>
    rw [told_unfailing_page hb hm hr c.request, failuresOf_ok]
    exact ih hf

end

/-! ## one call -/

section
variable {c : Cursor} {s : Session} {op : CursorOp} {k : CursorCall}

/-- a call meets one failure at most, and answers it; the cursor is not finished by it -/
theorem Acts.failures (h : Acts c s op k) :
    k.failures = [] ∨ ∃ e, k.failures = [e] ∧ k.answer = .error e ∧ k.after.1.finished = false := by
  cases h with
  | refused | stays | looks => exact .inl (by simp [CursorCall.failures, CursorCall.answered])
  | @reads _ r as x hr hf h =>
    have hanswered : s.answered x.2.2 = as := h.later.2
    simp only [CursorCall.failures, CursorCall.answered, hanswered]
    rcases h.failures hf (f := r.through) with ⟨e, has, hx, hd, -⟩ | ⟨has, -⟩
    · exact .inr ⟨e, has, by rw [hx]; rfl, hd⟩
    · exact .inl has
  | advances hf =>
    simp only [CursorCall.failures, CursorCall.answered, Session.answered_after]
    cases ha : s.reply with
    | ok page => exact .inl (by simp [ha])
    | error e => exact .inr ⟨e, by simp [ha], rfl, hf⟩

/-- a move that fails leaves the cursor as it was -/
theorem Acts.cursor_of_error {e : Error} (h : Acts c s .advance k) (he : k.answer = .error e) :
    k.after.1 = c := by
  cases h with
  | refused | stays => rfl
  | reads hr => cases hr
  | advances =>
    cases ha : s.reply with
    | ok page =>
      rw [ha] at he
      cases he
    | error e => rfl

end

/-! ## any calls -/

theorem answered_afterCalls (x : Cursor × Session) (ops : List CursorOp) :
    x.2.answered (afterCalls x ops).2 = (calls x ops).flatMap CursorCall.answered := by
  induction ops generalizing x with
  | nil => exact x.2.answered_self
  | cons op ops ih =>
    show x.2.answered (afterCalls (call x op).after ops).2 = _
    rw [(call_later x op).answered_append (afterCalls_later _ ops), ih]
    rfl

theorem failures_afterCalls (x : Cursor × Session) (ops : List CursorOp) :
    failuresOf (x.2.answered (afterCalls x ops).2) =
      (calls x ops).flatMap CursorCall.failures := by
  rw [answered_afterCalls, failuresOf, List.filterMap_flatMap]
  rfl

theorem calls_failures (x : Cursor × Session) (ops : List CursorOp) :
    ∀ k ∈ calls x ops, k.failures = [] ∨ ∃ e, k.failures = [e] ∧ k.answer = .error e := by
  induction ops generalizing x with
  | nil => exact fun _ hk => nomatch hk
  | cons op ops ih =>
    refine List.forall_mem_cons.2 ⟨?_, ih _⟩
    exact (acts_call x.1 x.2 op).failures.imp_right fun ⟨e, he, ha, _⟩ => ⟨e, he, ha⟩

theorem length_calls (x : Cursor × Session) (ops : List CursorOp) :
    (calls x ops).length = ops.length := by
  induction ops generalizing x with
  | nil => rfl
  | cons op ops ih => rw [calls, List.length_cons, ih, List.length_cons]

/-! ## any number of reads -/

section
variable {c : Cursor} {s : Session} {op : CursorOp} {r : CursorOp.Reading}

/-- a read of an open cursor meets the failures that its loop gets -/
theorem failures_call (hr : op.reading? = some r) (hf : c.finished = false)
    {as : List (Outcome RawResult)} (h : Pulls c s as (c.pull s)) :
    (call (c, s) op).failures = failuresOf as := by
  have hanswered : (call (c, s) op).answered = as := by
    rw [call_reading hr hf]
    exact h.later.2
  rw [CursorCall.failures, hanswered]

/-- the reads that met no failure tell the front of what the pages hold, and are refused beyond -/
theorem reads_undisturbed (hr : op.reading? = some r) (hf : c.finished = false) (n : Nat) :
    let items := c.told r.through s.unfailing.queue
    let calm := undisturbed (calls (c, s) (List.replicate n op))
    calm.map CursorCall.answer = (items.take calm.length).map (·.map r.answer) ++
      List.replicate (calm.length - items.length) (.error .cursorExhausted) := by
  induction n generalizing c s with
  | zero => simp [calls, undisturbed]
  | succ n ih =>
    obtain ⟨as, h⟩ := pulls_pull c s
    have hfailures := failures_call hr hf h
    have hcall := call_reading (s := s) hr hf
    have hafter : (call (c, s) op).after = (c.pull s).2 := by rw [hcall]
    have hanswer : (call (c, s) op).answer =
        (look r.through (c.pull s).2.1.columns (c.pull s).1).map r.answer := by rw [hcall]
    rw [List.replicate_succ, calls, hafter]
    rcases h.failures hf (f := r.through) with ⟨e, has, -, hd, htold⟩ | ⟨has, htold⟩
    · rw [undisturbed_of_failure _ (hfailures.trans has), htold]
      exact ih hd
    · rw [undisturbed_of_none _ (hfailures.trans has), htold]
      dsimp only
      rw [List.map_cons, hanswer]
      cases hd : (c.pull s).2.1.finished with
      | true =>
        -- the end was told, and a refused read meets no failure
        have hrefused : undisturbed (calls (c.pull s).2 (List.replicate n op)) =
            List.replicate n ⟨op, (c.pull s).2, .error .cursorExhausted, (c.pull s).2⟩ := by
          rw [calls_refused hd (ne_currentPage hr), undisturbed, List.filter_replicate,
            if_pos (by simp [CursorCall.failures, CursorCall.answered])]
        rw [hrefused]
        simp
      | false =>
        rw [ih hd]
        simp

end

/-! ## with and without failures -/

section
variable {queue : List (Outcome RawResult)} {statement : Statement} {parameters : Parameters}
  {c : Cursor} {t : Session}

/-- the first page opens the same cursor, whether the session is going to fail or not -/
theorem open_unfailing
    (h : (Session.replaying queue).openCursor (.ok (statement, parameters)) = (.ok c, t)) :
    ∃ t', (Session.replaying ((pagesOf queue).map .ok)).openCursor (.ok (statement, parameters)) =
        (.ok c, t') ∧
      t'.queue = t.unfailing.queue ∧ failuresOf t.queue = failuresOf queue := by
  match queue with
  | [] => exact ⟨t, h, by cases h; rfl, by cases h; rfl⟩
  | .ok page :: rest =>
    cases h
    exact ⟨_, rfl, rfl, rfl⟩
  | .error e :: rest => cases h

/-- Failures of the session in the middle of paging do no harm.  Each is answered to one read; the
other reads answer what they answer when the session has the same pages and does not fail.  A move
that fails leaves the cursor as it was, and no failure finishes a cursor. -/
theorem failures_retried
    (h : (Session.replaying queue).openCursor (.ok (statement, parameters)) = (.ok c, t))
    {op : CursorOp} {r : CursorOp.Reading} (hr : op.reading? = some r) (n : Nat) :
    let made := calls (c, t) (List.replicate n op)
    let calm := undisturbed made
    (∃ t', (Session.replaying ((pagesOf queue).map .ok)).openCursor (.ok (statement, parameters)) =
        (.ok c, t') ∧
      calm.map CursorCall.answer =
        (calls (c, t') (List.replicate calm.length op)).map CursorCall.answer) ∧
    n ≤ calm.length + (failuresOf queue).length ∧
    (∀ k ∈ made, k.failures = [] ∨ ∃ e, k.failures = [e] ∧ k.answer = .error e) ∧
    made.flatMap CursorCall.failures =
      failuresOf (t.answered (afterCalls (c, t) (List.replicate n op)).2) ∧
    made.flatMap CursorCall.failures <+: failuresOf queue ∧
    (∀ (x : Cursor × Session) e, (call x .advance).answer = .error e →
      (call x .advance).after.1 = x.1) ∧
    ∀ (x : Cursor × Session) move, (call x move).failures ≠ [] →
      (call x move).after.1.finished = false := by
  intro made calm
  obtain ⟨t', hopen, hqueue, hfailures⟩ := open_unfailing h
  have hf := unfinished_of_open h
  have hmade : ∀ k ∈ made, k.failures = [] ∨ ∃ e, k.failures = [e] ∧ k.answer = .error e :=
    calls_failures (c, t) (List.replicate n op)
  have hsum : made.flatMap CursorCall.failures =
      failuresOf (t.answered (afterCalls (c, t) (List.replicate n op)).2) :=
    (failures_afterCalls (c, t) (List.replicate n op)).symm
  have hprefix : made.flatMap CursorCall.failures <+: failuresOf queue := by
    rw [hsum, ← hfailures]
    exact t.failuresOf_replies_prefix _
  refine ⟨⟨t', hopen, ?_⟩, ?_, hmade, hsum, hprefix,
    fun x e => (acts_call x.1 x.2 .advance).cursor_of_error, ?_⟩
  · rw [reads_told hr hf, hqueue]
    exact reads_undisturbed hr hf n
  · have hlength : made.length = calm.length + (made.flatMap CursorCall.failures).length :=
      length_undisturbed fun k hk => (hmade k hk).imp_right fun ⟨e, he, _⟩ => ⟨e, he⟩
    have hn : made.length = n := by
      rw [length_calls, List.length_replicate]
    have hle := hprefix.length_le
    omega
  · intro x move hne
    rcases (acts_call x.1 x.2 move).failures with hnil | ⟨_, _, _, hd⟩
    · exact absurd hnil hne
    · exact hd

/-- failures before and after a page without rows, before a row that does not decode, and one that
is never reached -/
theorem failures_retried_patchy :
    let queue : List (Outcome RawResult) :=
      [.ok ⟨[⟨"k", .int⟩], some [[some [0, 0, 0, 1]]], some [1], none, []⟩,
        .error (.transport "gone"), .ok ⟨[], none, some [2], none, []⟩,
        .error (.transport "gone"), .error (.transport "still gone"),
        .ok ⟨[], some [[some [7]], [none]], none, none, []⟩, .error (.transport "late")]
    let statement : Statement := .direct "SELECT k FROM t" none
    ∃ c t, (Session.replaying queue).openCursor (.ok (statement, .empty)) = (.ok c, t) ∧
      CursorOp.reading? .nextRow = some ⟨RawResult.rowOf, .row⟩ ∧
      let made := calls (c, t) (List.replicate 8 .nextRow)
      let calm := undisturbed made
      (∃ t', (Session.replaying ((pagesOf queue).map .ok)).openCursor (.ok (statement, .empty)) =
          (.ok c, t') ∧
        calm.map CursorCall.answer =
          (calls (c, t') (List.replicate calm.length .nextRow)).map CursorCall.answer) ∧
      8 ≤ calm.length + (failuresOf queue).length ∧
      (∀ k ∈ made, k.failures = [] ∨ ∃ e, k.failures = [e] ∧ k.answer = .error e) ∧
      made.flatMap CursorCall.failures =
        failuresOf (t.answered (afterCalls (c, t) (List.replicate 8 .nextRow)).2) ∧
      made.flatMap CursorCall.failures <+: failuresOf queue ∧
      (∀ (x : Cursor × Session) e, (call x .advance).answer = .error e →
        (call x .advance).after.1 = x.1) ∧
      ∀ (x : Cursor × Session) move, (call x move).failures ≠ [] →
        (call x move).after.1.finished = false := by
  intro queue statement
  have h : (Session.replaying queue).openCursor (.ok (statement, .empty)) = (.ok _, _) := rfl
  have hr : CursorOp.reading? .nextRow = some ⟨RawResult.rowOf, .row⟩ := rfl
  exact ⟨_, _, h, hr, failures_retried h hr 8⟩

end

end Cql.Cursor
