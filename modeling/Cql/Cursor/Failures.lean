import Cql.Cursor.Calls

/-!
# Failures among replies

A failure of the session is a reply like any other and takes the place of none.  `unfailing` is the
session whose queue has the same pages in the same order and no failure between them; a page that
comes next comes next there as well, and a failure that comes next is nothing there.
-/

namespace Cql

def failuresOf (replies : List (Outcome RawResult)) : List Error :=
  replies.filterMap fun
    | .ok _ => none
    | .error e => some e

/-- the failures of the session during a call -/
def CursorCall.failures (k : CursorCall) : List Error := failuresOf k.answered

/-- the calls during which the session did not fail -/
def undisturbed (made : List CursorCall) : List CursorCall :=
  made.filter fun k => k.failures.isEmpty

/-- the session whose requests get the same pages and never fail -/
def Session.unfailing (s : Session) : Session := { s with queue := (pagesOf s.queue).map .ok }

section
variable (replies replies' : List (Outcome RawResult))

@[simp] theorem failuresOf_nil : failuresOf [] = [] := rfl

@[simp] theorem failuresOf_ok (page : RawResult) :
    failuresOf (.ok page :: replies) = failuresOf replies := rfl

@[simp] theorem failuresOf_error (e : Error) :
    failuresOf (.error e :: replies) = e :: failuresOf replies := rfl

@[simp] theorem failuresOf_append :
    failuresOf (replies ++ replies') = failuresOf replies ++ failuresOf replies' :=
  List.filterMap_append

end

section
variable {k : CursorCall} (made : List CursorCall)

theorem undisturbed_of_failure {e : Error} (h : k.failures = [e]) :
    undisturbed (k :: made) = undisturbed made :=
  List.filter_cons_of_neg (by simp [h])

theorem undisturbed_of_none (h : k.failures = []) :
    undisturbed (k :: made) = k :: undisturbed made :=
  List.filter_cons_of_pos (by simp [h])

/-- calls that meet one failure at most are undisturbed, or are counted by their failures -/
theorem length_undisturbed {made : List CursorCall}
    (h : ∀ k ∈ made, k.failures = [] ∨ ∃ e, k.failures = [e]) :
    made.length = (undisturbed made).length + (made.flatMap CursorCall.failures).length := by
  induction made with
  | nil => rfl
  | cons k made ih =>
    obtain ⟨hk, hmade⟩ := List.forall_mem_cons.1 h
    rw [List.length_cons, ih hmade, List.flatMap_cons, List.length_append]
    rcases hk with hk | ⟨e, hk⟩
    · rw [undisturbed_of_none made hk, hk, List.length_cons, List.length_nil]
      omega
    · rw [undisturbed_of_failure made hk, hk, List.length_singleton]
      omega

end

namespace Session
variable {s : Session}

/-- what the next requests get has the failures of the front of the queue -/
theorem failuresOf_replies (s : Session) (n : Nat) :
    failuresOf (s.replies n) = failuresOf (s.queue.take n) := by
  induction n with
  | zero => rfl
  | succ n ih =>
    rw [replies_succ, failuresOf_append, ih, List.take_add_one, failuresOf_append]
    cases s.queue[n]? <;> rfl

theorem failuresOf_replies_prefix (s : Session) (n : Nat) :
    failuresOf (s.replies n) <+: failuresOf s.queue := by
  rw [failuresOf_replies]
  exact (List.take_prefix n s.queue).filterMap _

theorem unfailing_page {page : RawResult} (h : s.reply = .ok page) (r : Request) :
    s.unfailing.reply = .ok page ∧
      (s.unfailing.after [r]).queue = (s.after [r]).unfailing.queue := by
  unfold reply at h
  cases hq : s.queue with
  | nil =>
    rw [hq] at h
    simp [reply, unfailing, after, hq, ← h]
  | cons a queue =>
    rw [hq] at h
    obtain rfl : a = .ok page := h
    simp [reply, unfailing, after, hq]

theorem unfailing_failure {e : Error} (h : s.reply = .error e) (r : Request) :
    (s.after [r]).unfailing.queue = s.unfailing.queue := by
  unfold reply at h
  cases hq : s.queue with
  | nil =>
    rw [hq] at h
    cases h
  | cons a queue =>
    rw [hq] at h
    obtain rfl : a = .error e := h
    simp [unfailing, after, hq]

end Session

end Cql
