import Cql.Cursor.Told
import Cql.Proofs.Fetching

/-!
# Reading again and again

One read takes the first item off what a cursor has left to tell, whatever pages and failures lie
before it; so any number of reads tell the front of that list, and are refused beyond its end.

* `Pulls.told`, `Pulls.turns`   the loop of a read against `told` and `turns`;
* `reads_told`                  the answers of any number of reads;
* `reads_asked`                 the number of their requests, when they reach the end.
-/

namespace Cql.Cursor

section
variable {α : Type} {f : List ColumnSpec → RawRow → Outcome α} {c : Cursor} {s : Session}

theorem told_reply (hb : c.buffer = []) (hm : c.hasMore) (r : Request) :
    c.told f s.queue = match s.reply with
      | .ok page => (c.absorb page).told f (s.after [r]).queue
      | .error e => .error e :: c.told f (s.after [r]).queue := by
  have hseen : c.seen f = [] := by simp [seen, hb]
  cases hq : s.queue with
  | nil =>
    have hvoid : (c.absorb .void).told f [] = [.ok none] := told_over rfl rfl []
    simp [Session.reply, Session.after, hq, told, hseen, hvoid]
  | cons a queue =>
    cases a with
    | ok page => simp [Session.reply, Session.after, hq, told, hseen, hm]
    | error e =>
      have hc : ({ c with buffer := [] } : Cursor) = c := by
        rw [← hb]
      simp [Session.reply, Session.after, hq, told, hseen, hm, hc]

theorem turns_reply (hm : c.hasMore) (r : Request) :
    c.turns s.queue = (c.receive s.reply).turns (s.after [r]).queue + 1 := by
  cases hq : s.queue with
  | nil =>
    have hvoid : (c.absorb .void).turns [] = 0 := turns_over rfl []
    simp [Session.reply, Session.after, hq, turns, receive, hm, hvoid]
  | cons a queue => cases a <;> simp [Session.reply, Session.after, hq, turns, receive, hm]

/-- requests depend on the place alone -/
theorem turns_congr {c d : Cursor} (h : d.pagingState = c.pagingState)
    (queue : List (Outcome RawResult)) : d.turns queue = c.turns queue := by
  have hm : d.hasMore = c.hasMore := by rw [hasMore, h, hasMore]
  induction queue generalizing c d with
  | nil => rw [turns, turns, hm]
  | cons a queue ih =>
    cases a with
    | ok page => rw [turns, turns, hm, ih (c := c.absorb page) (d := d.absorb page) rfl rfl]
    | error e => rw [turns, turns, hm, ih h hm]

end

namespace Pulls
variable {α : Type} {f : List ColumnSpec → RawRow → Outcome α} {c : Cursor} {s : Session}
  {as : List (Outcome RawResult)} {x : CursorExchange (Option RawRow)}

/-- a read tells the first item, and leaves the others unless it was the end -/
theorem told (h : Pulls c s as x) (hf : c.finished = false) :
    c.told f s.queue = look f x.2.1.columns x.1 ::
      if x.2.1.finished then [] else x.2.1.told f x.2.2.queue := by
  induction h with
  | row hb =>
    rw [told_row hb, if_neg (by simp [hf])]
    rfl
  | ended hb hm => exact told_over hb hm _
  | @failed c s e hb hm hr =>
    rw [told_reply hb hm c.request, hr, if_neg (by simp [hf])]
    rfl
  | @page c s page as x hb hm hr _ ih =>
    rw [told_reply hb hm c.request, hr]
    exact ih hf

theorem turns (h : Pulls c s as x) : c.turns s.queue = as.length + x.2.1.turns x.2.2.queue := by
  induction h with
  | row | ended =>
    rw [List.length_nil, Nat.zero_add]
    symm
    apply turns_congr
    rfl
  | @failed c s e _ hm hr =>
    rw [turns_reply hm c.request, hr, List.length_singleton, Nat.add_comm]
    rfl
  | @page c s page as x _ hm hr _ ih =>
    rw [turns_reply hm c.request, hr, List.length_cons, Nat.add_right_comm, ← ih]
    rfl

theorem finished_iff (h : Pulls c s as x) (hf : c.finished = false) :
    x.2.1.finished ↔ x.1 = .ok none := by
  induction h with
  | row | failed => simp [hf]
  | ended => simp
  | page _ _ _ _ ih => exact ih hf

end Pulls

/-! ## any number of reads -/

section
variable {c : Cursor} {s : Session} {op : CursorOp} {r : CursorOp.Reading}

theorem calls_refused (hf : c.finished) (hop : op ≠ .currentPage) (n : Nat) :
    calls (c, s) (List.replicate n op) =
      List.replicate n ⟨op, (c, s), .error .cursorExhausted, (c, s)⟩ := by
  induction n with
  | zero => rfl
  | succ n ih => rw [List.replicate_succ, calls, call_refused hf hop, ih, List.replicate_succ]

/-- reads tell the front of what is left, and are refused beyond its end -/
theorem reads_told (hr : op.reading? = some r) (hf : c.finished = false) (n : Nat) :
    (calls (c, s) (List.replicate n op)).map CursorCall.answer =
      ((c.told r.through s.queue).take n).map (·.map r.answer) ++
        List.replicate (n - (c.told r.through s.queue).length) (.error .cursorExhausted) := by
  induction n generalizing c s with
  | zero => simp [calls]
  | succ n ih =>
    obtain ⟨as, h⟩ := pulls_pull c s
    have htold := h.told hf (f := r.through)
    rw [List.replicate_succ, calls, List.map_cons, call_reading hr hf, htold]
    cases hd : (c.pull s).2.1.finished with
    | true =>
      show _ :: (calls (_, _) _).map _ = _
      rw [calls_refused hd (ne_currentPage hr)]
      simp
    | false =>
      show _ :: (calls (_, _) _).map _ = _
      rw [ih hd]
      simp

/-- reads that reach the end make all requests on the way, and no others -/
theorem reads_asked (hr : op.reading? = some r) (hf : c.finished = false) {n : Nat}
    (hn : (c.told r.through s.queue).length ≤ n) :
    (s.asked (afterCalls (c, s) (List.replicate n op)).2).length = c.turns s.queue := by
  induction n generalizing c s with
  | zero =>
    obtain ⟨as, h⟩ := pulls_pull c s
    rw [h.told hf] at hn
    cases hn
  | succ n ih =>
    obtain ⟨as, h⟩ := pulls_pull c s
    have hasked : (s.asked (c.pull s).2.2).length = as.length := by
      rw [← h.later.2, Session.answered, s.length_replies]
    have hcall : (call (c, s) op).after = (c.pull s).2 := by rw [call_reading hr hf]
    show (s.asked (afterCalls (call (c, s) op).after (List.replicate n op)).2).length = _
    rw [h.later.1.asked_append (hcall ▸ afterCalls_later _ _), List.length_append, hasked, h.turns,
      hcall]
    congr 1
    cases hd : (c.pull s).2.1.finished with
    | true =>
      obtain ⟨-, hp, -⟩ := h.of_none ((h.finished_iff hf).1 hd)
      rw [turns_over (by simp [hasMore, hp]), asked_afterCalls, calls_refused hd
        (ne_currentPage hr)]
      simp [CursorCall.asked]
    | false =>
      rw [h.told hf (f := r.through), hd] at hn
      exact ih hd (Nat.le_of_succ_le_succ hn)

end

end Cql.Cursor
