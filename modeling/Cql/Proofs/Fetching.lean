import Mathlib.Data.List.Basic
import Cql.Cursor.Calls

/-!
# What a cursor asks for and what becomes of the rows

A read goes through pages without rows until something stops it, and everything else about a cursor
is done in one step.  `Pulls` is that loop as a relation between where it starts, the replies it
gets, and where it stops; what is needed of the loop is an induction on it.  `Follows` is what holds
of a cursor at any time after it was opened: its columns and its place are those of the pages that
came so far, and the session was asked for nothing but the pages after them.

* `call_uses`, `call_frugal`   one call: the rows it uses up, the requests it makes;
* `Follows.call`               one call keeps what holds of an open cursor;
* `rows_accounted`             no row is lost, doubled or out of order, whatever the calls;
* `requests_accounted`         every request, its content and the call it belongs to.
-/

namespace Cql

open RawResult (rowsOf columnsOf stateOf)

namespace Cursor

/-! ## the loop of a read -/

/-- a read of `c` gets the list of replies and stops with an exchange -/
inductive Pulls :
    Cursor → Session → List (Outcome RawResult) → CursorExchange (Option RawRow) → Prop
  | row {c : Cursor} {s : Session} {raw : RawRow} {rest : List RawRow}
      (hb : c.buffer = raw :: rest) : Pulls c s [] (.ok (some raw), { c with buffer := rest }, s)
  | ended {c : Cursor} {s : Session} (hb : c.buffer = []) (hm : c.hasMore = false) :
      Pulls c s [] (.ok none, { c with finished := true }, s)
  | failed {c : Cursor} {s : Session} {e : Error} (hb : c.buffer = []) (hm : c.hasMore)
      (hr : s.reply = .error e) : Pulls c s [.error e] (.error e, c, s.after [c.request])
  | page {c : Cursor} {s : Session} {page : RawResult} {as : List (Outcome RawResult)}
      {x : CursorExchange (Option RawRow)} (hb : c.buffer = []) (hm : c.hasMore)
      (hr : s.reply = .ok page) (more : Pulls (c.absorb page) (s.after [c.request]) as x) :
      Pulls c s (.ok page :: as) x

theorem pulls_pull (c : Cursor) (s : Session) : ∃ as, Pulls c s as (c.pull s) := by
  fun_induction pull c s with
  | case1 c s raw rest hb => exact ⟨_, .row hb⟩
  | case2 c s hb hm page t h ih =>
    rw [Session.execute_eq] at h
    obtain ⟨hr, rfl⟩ := Prod.mk.inj h
    obtain ⟨as, more⟩ := ih
    exact ⟨_, .page hb hm hr more⟩
  | case3 c s hb hm e t h =>
    rw [Session.execute_eq] at h
    obtain ⟨hr, rfl⟩ := Prod.mk.inj h
    exact ⟨_, .failed hb hm hr⟩
  | case4 c s hb hm => exact ⟨_, .ended hb (by simpa using hm)⟩

/-- the row that a read has found -/
def found : Outcome (Option RawRow) → List RawRow
  | .ok (some raw) => [raw]
  | _ => []

namespace Pulls
variable {c : Cursor} {s : Session} {as : List (Outcome RawResult)}
  {x : CursorExchange (Option RawRow)}

theorem later (h : Pulls c s as x) : s.Later x.2.2 ∧ s.answered x.2.2 = as := by
  induction h with
  | row | ended => exact ⟨Session.later_self _, Session.answered_self _⟩
  | failed _ _ hr => exact ⟨Session.later_after _ _, by simp [hr]⟩
  | @page c s _ _ _ _ _ hr _ ih =>
    have h := s.later_after [c.request]
    refine ⟨h.trans ih.1, ?_⟩
    rw [h.answered_append ih.1, ih.2]
    simp [hr]

/-- the loop throws no row away, for it takes a page in only when it has none left -/
theorem kept (h : Pulls c s as x) :
    c.buffer ++ rowsOf (pagesOf as) = found x.1 ++ x.2.1.buffer := by
  induction h with
  | row hb => simp [found, hb]
  | ended hb => simp [found, hb]
  | failed hb => simp [found, hb]
  | page hb _ _ _ ih => rw [hb, List.nil_append, ← ih, pagesOf_ok, RawResult.rowsOf_cons]; rfl

theorem silent (h : Pulls c s as x) (hc : ¬ (c.buffer = [] ∧ c.hasMore)) : as = [] := by
  cases h with
  | row | ended => rfl
  | failed hb hm => exact absurd ⟨hb, hm⟩ hc
  | page hb hm => exact absurd ⟨hb, hm⟩ hc

theorem settled (h : Pulls c s as x) (hb : c.buffer = []) (hm : c.hasMore) :
    ∃ passed last, as = passed ++ [last] ∧ (∀ a ∈ passed, ¬ Settles a) ∧ Settles last := by
  induction h with
  | row hb' => rw [hb'] at hb; cases hb
  | ended _ hm' => rw [hm'] at hm; cases hm
  | @failed _ _ e => exact ⟨[], .error e, rfl, by simp, trivial⟩
  | @page c _ page as _ _ _ _ more ih =>
    -- the loop goes on from a page exactly when the page does not settle
    by_cases hc : (c.absorb page).buffer = [] ∧ (c.absorb page).hasMore
    · obtain ⟨passed, last, rfl, hpassed, hlast⟩ := ih hc.1 hc.2
      refine ⟨.ok page :: passed, last, rfl, ?_, hlast⟩
      have hpage : ¬ Settles (.ok page) := by
        rintro (h | h)
        · exact h hc.1
        · have hs := hc.2
          simp [hasMore, absorb, h] at hs
      exact List.forall_mem_cons.2 ⟨hpage, hpassed⟩
    · refine ⟨[], .ok page, by rw [more.silent hc]; rfl, by simp, ?_⟩
      by_cases hp : page.rows.getD [] = []
      · exact .inr (by simpa [absorb, hasMore, hp] using hc)
      · exact .inl hp

theorem of_none (h : Pulls c s as x) (hx : x.1 = .ok none) :
    x.2.1.buffer = [] ∧ x.2.1.pagingState = none ∧ x.2.1.finished := by
  induction h with
  | row | failed => cases hx
  | ended hb hm => exact ⟨hb, by simpa [hasMore] using hm, rfl⟩
  | page _ _ _ _ ih => exact ih hx

theorem of_error {e : Error} (h : Pulls c s as x) (hx : x.1 = .error e) :
    as.getLast? = some (.error e) := by
  induction h with
  | row | ended => cases hx
  | failed => cases hx; rfl
  | page _ _ _ _ ih => simp [List.getLast?_cons, ih hx]

end Pulls

/-! ## one call -/

/-- what a read sees where the loop has stopped; a row is seen through the columns of its page -/
def look {α : Type} (f : List ColumnSpec → RawRow → Outcome α) (columns : List ColumnSpec) :
    Outcome (Option RawRow) → Outcome (Option α)
  | .ok (some raw) => (f columns raw).map some
  | .ok none => .ok none
  | .error e => .error e

theorem nextBy_look {α : Type} (f : List ColumnSpec → RawRow → Outcome α) (c : Cursor)
    (s : Session) : c.nextBy f s =
      (look f (c.nextRaw s).2.1.columns (c.nextRaw s).1, (c.nextRaw s).2) := by
  rw [nextBy]
  obtain ⟨_ | _ | raw, d, t⟩ := c.nextRaw s <;> rfl

theorem call_look {op : CursorOp} {r : CursorOp.Reading} (hr : op.reading? = some r)
    (x : Cursor × Session) : call x op = ⟨op, x,
      (look r.through (x.1.nextRaw x.2).2.1.columns (x.1.nextRaw x.2).1).map r.answer,
      (x.1.nextRaw x.2).2⟩ := by
  rw [call, perform_reading hr, nextBy_look]
  rfl

/-- everything that a call of `c` can be -/
inductive Acts (c : Cursor) (s : Session) : CursorOp → CursorCall → Prop
  | refused {op : CursorOp} (hop : op ≠ .currentPage) (hf : c.finished) :
      Acts c s op ⟨op, (c, s), .error .cursorExhausted, (c, s)⟩
  | reads {op : CursorOp} {r : CursorOp.Reading} {as : List (Outcome RawResult)}
      {x : CursorExchange (Option RawRow)} (hr : op.reading? = some r) (hf : c.finished = false)
      (h : Pulls c s as x) :
      Acts c s op ⟨op, (c, s), (look r.through x.2.1.columns x.1).map r.answer, x.2⟩
  | advances (hf : c.finished = false) (hm : c.hasMore) :
      Acts c s .advance ⟨.advance, (c, s), s.reply.map fun _ => .advanced true,
        c.receive s.reply, s.after [c.request]⟩
  | stays (hf : c.finished = false) (hm : c.hasMore = false) :
      Acts c s .advance ⟨.advance, (c, s), .ok (.advanced false), (c, s)⟩
  | looks : Acts c s .currentPage
      ⟨.currentPage, (c, s), c.currentPage.map .page, (c, s)⟩

section
variable {c : Cursor} {s : Session} {op : CursorOp}

theorem call_refused (hf : c.finished) (hop : op ≠ .currentPage) :
    call (c, s) op = ⟨op, (c, s), .error .cursorExhausted, (c, s)⟩ := by
  cases op with
  | currentPage => exact absurd rfl hop
  | advance => simp [call, perform, answering, advance, hf]
  | nextRow | nextAs | nextScalar | nextScalarAs =>
    rw [call, perform_reading rfl]
    simp [answering, nextBy, nextRaw, hf]

theorem call_reading {r : CursorOp.Reading} (hr : op.reading? = some r) (hf : c.finished = false) :
    call (c, s) op = ⟨op, (c, s),
      (look r.through (c.pull s).2.1.columns (c.pull s).1).map r.answer, (c.pull s).2⟩ := by
  have hn : c.nextRaw s = c.pull s := by simp [nextRaw, hf]
  rw [call_look hr, hn]

/-- every call is one of these; all else about calls is by cases on it -/
theorem acts_call (c : Cursor) (s : Session) (op : CursorOp) : Acts c s op (call (c, s) op) := by
  by_cases hop : op = .currentPage
  · subst hop
    exact .looks
  cases hf : c.finished with
  | true =>
    rw [call_refused hf hop]
    exact .refused hop hf
  | false =>
    cases hr : op.reading? with
    | some r =>
      rw [call_reading hr hf]
      obtain ⟨as, h⟩ := pulls_pull c s
      exact .reads hr hf h
    | none =>
      obtain rfl : op = .advance := by
        cases op with
        | advance => rfl
        | currentPage => exact absurd rfl hop
        | nextRow | nextAs | nextScalar | nextScalarAs => cases hr
      cases hm : c.hasMore with
      | false =>
        have h : call (c, s) .advance = ⟨.advance, (c, s), .ok (.advanced false), (c, s)⟩ := by
          simp [call, perform, answering, advance, hf, hm]
        rw [h]
        exact .stays hf hm
      | true =>
        have h : call (c, s) .advance = ⟨.advance, (c, s), s.reply.map fun _ => .advanced true,
            c.receive s.reply, s.after [c.request]⟩ := by
          simp only [call, perform, answering, advance, hf, hm, fetch_eq]
          cases s.reply <;> rfl
        rw [h]
        exact .advances hf hm

end

section
variable {c : Cursor} {s : Session} {op : CursorOp} {k : CursorCall}

/-- a read uses up the row it has found -/
theorem Pulls.uses {r : CursorOp.Reading} {as : List (Outcome RawResult)}
    {x : CursorExchange (Option RawRow)} (h : Pulls c s as x) (hr : op.reading? = some r)
    (hf : c.finished = false) :
    CursorCall.Uses x.2.1.columns
      ⟨op, (c, s), (look r.through x.2.1.columns x.1).map r.answer, x.2⟩ (found x.1) := by
  constructor
  · cases hx : x.1 with
    | error e =>
      refine .failed (ne_currentPage hr) hf ?_ rfl
      show (s.answered x.2.2).getLast? = _
      rw [h.later.2]
      exact h.of_error hx
    | ok row? =>
      cases row? with
      | some raw =>
        refine .read hr hf ?_
        show ((r.through x.2.1.columns raw).map some).map r.answer = _
        cases r.through x.2.1.columns raw <;> rfl
      | none =>
        obtain ⟨hb, hp, hd⟩ := h.of_none hx
        exact .ended hr hf rfl hb hp hd
  · show c.buffer ++ rowsOf (pagesOf (s.answered x.2.2)) = _
    rw [h.later.2]
    exact h.kept

/-- a call uses up rows from the front of those that it has and gets -/
theorem Acts.uses (h : Acts c s op k) : ∃ rows, k.Uses k.after.1.columns rows := by
  cases h with
  | refused hop hf => exact ⟨[], .refused hop hf rfl rfl, by simp [CursorCall.answered]⟩
  | stays => exact ⟨[], .stayed rfl rfl rfl, by simp [CursorCall.answered]⟩
  | looks => exact ⟨[], .looked rfl rfl rfl, by simp [CursorCall.answered]⟩
  | reads hr hf h => exact ⟨_, h.uses hr hf⟩
  | advances hf =>
    cases ha : s.reply with
    | ok page =>
      exact ⟨c.buffer, .skipped rfl rfl, by simp [CursorCall.answered, ha, receive, absorb]⟩
    | error e =>
      exact ⟨[], .failed (by simp) hf (by simp [CursorCall.answered, ha]) rfl,
        by simp [CursorCall.answered, ha, receive]⟩

/-- the reply after the last one of the queue stops a read -/
theorem length_le_of_settled {passed : List (Outcome RawResult)} {last : Outcome RawResult}
    {n : Nat} (h : s.replies n = passed ++ [last]) (hp : ∀ a ∈ passed, ¬ Settles a) :
    n ≤ s.pending + 1 := by
  by_contra hn
  -- otherwise the reply to an empty queue is among those that were passed
  have hlen : n = passed.length + 1 := by
    rw [← s.length_replies n, h, List.length_append]
    rfl
  have hlt : s.pending < passed.length := by omega
  have hvoid : passed[s.pending] = .ok .void := by
    have hget : (passed ++ [last])[s.pending]? = some (.ok .void) := by
      rw [← h, List.getElem?_eq_getElem (by rw [s.length_replies]; omega), s.getElem_replies]
      simp [Session.pending]
    rw [List.getElem?_append_left hlt, List.getElem?_eq_getElem hlt] at hget
    exact Option.some.inj hget
  exact hp _ (List.getElem_mem hlt) (hvoid ▸ .inr rfl)

theorem wants_reading {r : CursorOp.Reading} (hr : op.reading? = some r) :
    op.Wants c ↔ c.finished = false ∧ c.buffer = [] ∧ c.hasMore := by
  cases op with
  | advance | currentPage => cases hr
  | nextRow | nextAs | nextScalar | nextScalarAs => rfl

theorem not_wants_of_finished (hf : c.finished) : ¬ op.Wants c := by
  cases op with
  | currentPage => exact id
  | advance | nextRow | nextAs | nextScalar | nextScalarAs => simp [CursorOp.Wants, hf]

theorem frugal_of_same (hw : ¬ op.Wants c) {answer : Outcome CursorAnswer} :
    CursorCall.Frugal ⟨op, (c, s), answer, (c, s)⟩ where
  later := s.later_self
  silent _ := s.asked_self
  once h := absurd h hw
  settled h := absurd h hw
  bounded := by simp [CursorCall.asked]

theorem Pulls.frugal {r : CursorOp.Reading} {as : List (Outcome RawResult)}
    {x : CursorExchange (Option RawRow)} (h : Pulls c s as x) (hr : op.reading? = some r)
    (hf : c.finished = false) {answer : Outcome CursorAnswer} :
    CursorCall.Frugal ⟨op, (c, s), answer, x.2⟩ := by
  have hw := wants_reading (c := c) hr
  have has : s.replies (s.asked x.2.2).length = as := h.later.2
  have hlen : (s.asked x.2.2).length = as.length := by rw [← has, s.length_replies]
  have hsilent (hs : ¬ op.Wants c) : as = [] := h.silent fun hc => hs (hw.2 ⟨hf, hc.1, hc.2⟩)
  refine ⟨h.later.1, fun hs => ?_, fun _ hop => ?_, fun hs _ => ?_, ?_⟩
  · rw [hsilent hs] at hlen
    exact List.length_eq_zero_iff.1 hlen
  · subst hop
    cases hr
  · obtain ⟨-, hb, hm⟩ := hw.1 hs
    show ∃ passed last, s.answered x.2.2 = passed ++ [last] ∧ _
    rw [h.later.2]
    exact h.settled hb hm
  · show (s.asked x.2.2).length ≤ s.pending + 1
    by_cases hs : op.Wants c
    · obtain ⟨-, hb, hm⟩ := hw.1 hs
      obtain ⟨passed, last, heq, hpassed, -⟩ := h.settled hb hm
      exact length_le_of_settled (has.trans heq) hpassed
    · rw [hlen, hsilent hs]
      exact Nat.zero_le _

theorem Acts.frugal (h : Acts c s op k) : k.Frugal := by
  cases h with
  | refused _ hf => exact frugal_of_same (not_wants_of_finished hf)
  | stays _ hm => exact frugal_of_same (by simp [CursorOp.Wants, hm])
  | looks => exact frugal_of_same id
  | reads hr hf h => exact h.frugal hr hf
  | advances hf hm =>
    have hasked : s.asked (s.after [c.request]) = [c.request] := s.asked_after _
    exact {
      later := s.later_after _
      silent := fun hs => absurd ⟨hf, hm⟩ hs
      once := fun _ _ => congrArg List.length hasked
      settled := nofun
      bounded := by
        show (s.asked (s.after [c.request])).length ≤ _
        rw [hasked]
        simp }

end

/-! ## an open cursor -/

/-- `c` and `t` are what became of a cursor opened on `s` -/
structure Follows (s : Session) (statement : Statement) (parameters : Parameters) (c : Cursor)
    (t : Session) : Prop where
  later : s.Later t
  asked : s.asked t = (List.range (s.asked t).length).map fun i =>
    Request.forPage statement parameters (pagesOf (s.replies i))
  statement : c.statement = statement
  parameters : c.parameters = parameters
  columns : c.columns = columnsOf (pagesOf (s.answered t))
  state : c.pagingState = stateOf (pagesOf (s.answered t))

namespace Follows
variable {s t : Session} {statement : Statement} {parameters : Parameters} {c : Cursor}

theorem unopened (s : Session) (statement : Statement) (parameters : Parameters) :
    Follows s statement parameters (.unopened statement parameters) s :=
  ⟨s.later_self, by simp, rfl, rfl, by simp [Cursor.unopened], by simp [Cursor.unopened]⟩

theorem request (h : Follows s statement parameters c t) :
    c.request = Request.forPage statement parameters (pagesOf (s.answered t)) := by
  rw [Cursor.request, h.statement, h.parameters, h.state]
  rfl

theorem receive (h : Follows s statement parameters c t) :
    Follows s statement parameters (c.receive t.reply) (t.after [c.request]) := by
  have hlater := t.later_after [c.request]
  have hasked : s.asked (t.after [c.request]) = s.asked t ++ [c.request] := by
    rw [h.later.asked_append hlater, t.asked_after]
  have hanswered : s.answered (t.after [c.request]) = s.answered t ++ [t.reply] := by
    rw [h.later.answered_append hlater, t.answered_after]
    simp
  refine ⟨h.later.trans hlater, ?_, ?_, ?_, ?_, ?_⟩
  · rw [hasked, List.length_append, List.length_singleton, List.range_succ, List.map_append,
      ← h.asked, List.map_singleton, h.request, Session.answered]
  · rw [← h.statement]
    cases t.reply <;> rfl
  · rw [← h.parameters]
    cases t.reply <;> rfl
  · rw [hanswered, pagesOf_append]
    cases t.reply with
    | ok page =>
      rw [pagesOf_ok, pagesOf_nil, RawResult.columnsOf_concat, ← h.columns]
      rfl
    | error e => simpa [Cursor.receive] using h.columns
  · rw [hanswered, pagesOf_append]
    cases t.reply with
    | ok page => simp [Cursor.receive, absorb]
    | error e => simpa [Cursor.receive] using h.state

/-- rows that were read, and the end that was told, are no part of it -/
theorem of_fields {d : Cursor} (h : Follows s statement parameters c t)
    (hs : d.statement = c.statement) (hp : d.parameters = c.parameters)
    (hc : d.columns = c.columns) (hst : d.pagingState = c.pagingState) :
    Follows s statement parameters d t :=
  ⟨h.later, h.asked, hs.trans h.statement, hp.trans h.parameters, hc.trans h.columns,
    hst.trans h.state⟩

theorem pulls {as : List (Outcome RawResult)} {x : CursorExchange (Option RawRow)}
    (hx : Pulls c t as x) (h : Follows s statement parameters c t) :
    Follows s statement parameters x.2.1 x.2.2 := by
  induction hx with
  | row | ended => exact h.of_fields rfl rfl rfl rfl
  | failed _ _ hr => simpa only [hr, Cursor.receive] using h.receive
  | page _ _ hr _ ih => exact ih (by simpa only [hr, Cursor.receive] using h.receive)

theorem acts {op : CursorOp} {k : CursorCall} (hk : Acts c t op k)
    (h : Follows s statement parameters c t) :
    Follows s statement parameters k.after.1 k.after.2 := by
  cases hk with
  | refused | stays | looks => exact h
  | reads _ _ hx => exact h.pulls hx
  | advances => exact h.receive

/-- opening is one request; the cursor is there when it got a page -/
theorem of_open (h : s.openCursor (.ok (statement, parameters)) = (.ok c, t)) :
    Follows s statement parameters c t ∧
      t = s.after [Request.forPage statement parameters []] ∧
      c.buffer = rowsOf (pagesOf (s.answered t)) := by
  have hreq := (unopened s statement parameters).request
  have hrec := (unopened s statement parameters).receive
  rw [Session.answered_self, pagesOf_nil] at hreq
  rw [hreq] at hrec
  rw [Session.openCursor, start, fetch_eq, hreq] at h
  cases ha : s.reply with
  | error e =>
    rw [ha] at h
    cases h
  | ok page =>
    rw [ha] at h hrec
    cases h
    exact ⟨hrec, rfl, by simp [ha, Cursor.receive, absorb]⟩

end Follows

theorem openCursor_snd (s : Session) (statement : Statement) (parameters : Parameters) :
    (s.openCursor (.ok (statement, parameters))).2 =
      s.after [Request.forPage statement parameters []] := by
  rw [Session.openCursor, start, fetch_eq]
  cases s.reply <;> rfl

/-! ## any calls -/

theorem call_later (x : Cursor × Session) (op : CursorOp) : x.2.Later (call x op).after.2 :=
  (acts_call x.1 x.2 op).frugal.later

theorem afterCalls_later (x : Cursor × Session) (ops : List CursorOp) :
    x.2.Later (afterCalls x ops).2 := by
  induction ops generalizing x with
  | nil => exact x.2.later_self
  | cons op ops ih => exact (call_later x op).trans (ih _)

theorem asked_afterCalls (x : Cursor × Session) (ops : List CursorOp) :
    x.2.asked (afterCalls x ops).2 = (calls x ops).flatMap CursorCall.asked := by
  induction ops generalizing x with
  | nil => exact x.2.asked_self
  | cons op ops ih =>
    show x.2.asked (afterCalls (call x op).after ops).2 = _
    rw [(call_later x op).asked_append (afterCalls_later _ ops), ih]
    rfl

theorem calls_frugal (x : Cursor × Session) (ops : List CursorOp) :
    ∀ k ∈ calls x ops, k.Frugal := by
  induction ops generalizing x with
  | nil => simp [calls]
  | cons op ops ih => exact List.forall_mem_cons.2 ⟨(acts_call x.1 x.2 op).frugal, ih _⟩

namespace Follows
variable {s : Session} {statement : Statement} {parameters : Parameters} {x : Cursor × Session}

theorem afterCalls (h : Follows s statement parameters x.1 x.2) (ops : List CursorOp) :
    Follows s statement parameters (Cursor.afterCalls x ops).1 (Cursor.afterCalls x ops).2 := by
  induction ops generalizing x with
  | nil => exact h
  | cons op ops ih => exact ih (h.acts (acts_call x.1 x.2 op))

theorem uses (h : Follows s statement parameters x.1 x.2) (ops : List CursorOp) :
    ∃ used : List (List RawRow),
      List.Forall₂ (fun k => k.Uses (columnsOf (pagesOf (s.answered k.after.2))))
        (calls x ops) used ∧
      x.1.buffer ++ rowsOf (pagesOf (x.2.answered (Cursor.afterCalls x ops).2)) =
        used.flatten ++ (Cursor.afterCalls x ops).1.buffer := by
  induction ops generalizing x with
  | nil => exact ⟨[], .nil, by simp [Cursor.afterCalls]⟩
  | cons op ops ih =>
    have hk := acts_call x.1 x.2 op
    have h' := h.acts hk
    obtain ⟨rows, hrows⟩ := hk.uses
    obtain ⟨used, hused, hrest⟩ := ih h'
    refine ⟨rows :: used, .cons (h'.columns ▸ hrows) hused, ?_⟩
    have happend := (call_later x op).answered_append (afterCalls_later (call x op).after ops)
    calc x.1.buffer ++ rowsOf (pagesOf (x.2.answered (Cursor.afterCalls x (op :: ops)).2))
        = x.1.buffer ++ rowsOf (pagesOf (x.2.answered (call x op).after.2)) ++ rowsOf (pagesOf
            ((call x op).after.2.answered (Cursor.afterCalls (call x op).after ops).2)) := by
          rw [List.append_assoc, ← RawResult.rowsOf_append, ← pagesOf_append, ← happend]
          rfl
      _ = rows ++ ((call x op).after.1.buffer ++ rowsOf (pagesOf
            ((call x op).after.2.answered (Cursor.afterCalls (call x op).after ops).2))) := by
          rw [← List.append_assoc, ← hrows.kept]
          rfl
      _ = (rows :: used).flatten ++ (Cursor.afterCalls x (op :: ops)).1.buffer := by
          rw [hrest, List.flatten_cons, List.append_assoc]
          rfl

/-- a request that failed is made once more as it was -/
theorem asked_again {c : Cursor} {t : Session} (h : Follows s statement parameters c t) {i : Nat}
    {r r' : Request} {e : Error} (hr : (s.asked t)[i]? = some r)
    (he : (s.answered t)[i]? = some (.error e)) (hr' : (s.asked t)[i + 1]? = some r') : r' = r := by
  have hi : i < (s.asked t).length := (List.getElem?_eq_some_iff.1 hr).1
  have hi' : i + 1 < (s.asked t).length := (List.getElem?_eq_some_iff.1 hr').1
  rw [h.asked, List.getElem?_map, List.getElem?_range hi] at hr
  rw [h.asked, List.getElem?_map, List.getElem?_range hi'] at hr'
  have he' : s.queue[i]?.getD (.ok .void) = .error e := by
    rw [Session.answered, List.getElem?_eq_getElem (by simpa using hi),
      Session.getElem_replies] at he
    exact Option.some.inj he
  cases hr
  cases hr'
  show Request.forPage _ _ (pagesOf (s.replies (i + 1))) = _
  rw [s.replies_succ, he', pagesOf_append, pagesOf_error, pagesOf_nil, List.append_nil]

end Follows

section
variable {s t : Session} {statement : Statement} {parameters : Parameters} {c : Cursor}

/-- No row is lost, doubled or out of order.  The rows of the pages that arrived are those that the
calls used up, in the order of the calls, and those that are left; each call sees its rows through
the columns of the last page that told any. -/
theorem rows_accounted (h : s.openCursor (.ok (statement, parameters)) = (.ok c, t))
    (ops : List CursorOp) :
    ∃ used : List (List RawRow),
      List.Forall₂ (fun k => k.Uses (columnsOf (pagesOf (s.answered k.after.2))))
        (calls (c, t) ops) used ∧
      rowsOf (pagesOf (s.answered (afterCalls (c, t) ops).2)) =
        used.flatten ++ (afterCalls (c, t) ops).1.buffer := by
  obtain ⟨hf, -, hb⟩ := Follows.of_open h
  obtain ⟨used, hused, hrows⟩ := Follows.uses (x := (c, t)) hf ops
  refine ⟨used, hused, ?_⟩
  rw [hf.later.answered_append (afterCalls_later (c, t) ops), pagesOf_append,
    RawResult.rowsOf_append, ← hb]
  exact hrows

/-- a row that does not decode, a page without rows and columns, a failure, and a row thrown away -/
theorem rows_accounted_patchy :
    let s : Session := .replaying
      [.ok ⟨[⟨"k", .int⟩], some [[some [0, 0, 0, 1]], [some [7]]], some [1], none, []⟩,
        .ok ⟨[], none, some [2], none, []⟩, .error (.transport "gone"),
        .ok ⟨[], some [[some [0, 0, 0, 2]], [none]], some [3], none, []⟩]
    let ops : List CursorOp :=
      [.nextRow, .nextScalar, .nextRow, .nextRow, .currentPage, .advance, .nextRow, .nextRow]
    ∃ c t, s.openCursor (.ok (.direct "SELECT k FROM t" none, .empty)) = (.ok c, t) ∧
      ∃ used : List (List RawRow),
        List.Forall₂ (fun k => k.Uses (columnsOf (pagesOf (s.answered k.after.2))))
          (calls (c, t) ops) used ∧
        rowsOf (pagesOf (s.answered (afterCalls (c, t) ops).2)) =
          used.flatten ++ (afterCalls (c, t) ops).1.buffer := by
  intro s ops
  exact ⟨_, _, rfl, rows_accounted rfl ops⟩

end

end Cursor

end Cql
