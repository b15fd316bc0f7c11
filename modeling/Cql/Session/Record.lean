import Cql.Session

/-!
# What a session is asked and replies

A session replies in the order of its queue, whatever it is asked, and an empty queue goes on with
replies that have nothing in them.  So what the next `n` requests get is known before they are made
(`replies`), and so is the session after them (`after`).  `asked` and `answered` compare two states
of one session, the second of them `Later`.
-/

namespace Cql.Session

/-- what the next request gets -/
def reply (s : Session) : Outcome RawResult := s.queue.head?.getD (.ok .void)

/-- what the next `n` requests get -/
def replies (s : Session) (n : Nat) : List (Outcome RawResult) :=
  (List.range n).map fun i => s.queue[i]?.getD (.ok .void)

/-- the session after the requests `rs` -/
def after (s : Session) (rs : List Request) : Session :=
  { s with queue := s.queue.drop rs.length, requests := s.requests ++ rs }

/-- the requests that `t` has seen and `s` has not -/
def asked (s t : Session) : List Request := t.requests.drop s.requests.length

/-- what those requests got -/
def answered (s t : Session) : List (Outcome RawResult) := s.replies (s.asked t).length

/-- `t` is `s` after some requests -/
def Later (s t : Session) : Prop := t = s.after (s.asked t)

theorem execute_eq (s : Session) (r : Request) : s.execute r = (s.reply, s.after [r]) := by
  cases h : s.queue with
  | nil => simp [execute, answer, reply, after, h]
  | cons a as => simp [execute, answer, reply, after, h]

/-! ## replies -/

section
variable (s : Session)

@[simp] theorem length_replies (n : Nat) : (s.replies n).length = n := by simp [replies]

@[simp] theorem replies_zero : s.replies 0 = [] := rfl

@[simp] theorem replies_one : s.replies 1 = [s.reply] := by
  show [s.queue[0]?.getD (.ok .void)] = _
  rw [← List.head?_eq_getElem?]
  rfl

theorem getElem_replies {n i : Nat} (h : i < (s.replies n).length) :
    (s.replies n)[i] = s.queue[i]?.getD (.ok .void) := by simp [replies]

theorem replies_succ (n : Nat) :
    s.replies (n + 1) = s.replies n ++ [s.queue[n]?.getD (.ok .void)] := by
  rw [replies, List.range_succ, List.map_append]
  rfl

theorem replies_append (rs : List Request) (n : Nat) :
    s.replies (rs.length + n) = s.replies rs.length ++ (s.after rs).replies n := by
  simp [replies, after, List.range_add, Function.comp_def]

theorem replies_replaying {pages : List RawResult} {n : Nat} (h : n ≤ pages.length) :
    (replaying (pages.map .ok)).replies n = (pages.take n).map .ok := by
  apply List.ext_getElem
  · simp [h]
  · intro i hi hi'
    have hlt : i < pages.length := by
      rw [length_replies] at hi
      omega
    simp [replies, replaying, hlt]

/-! ## later states -/

@[simp] theorem after_nil : s.after [] = s := by simp [after]

theorem after_append (rs rs' : List Request) : s.after (rs ++ rs') = (s.after rs).after rs' := by
  simp [after]

@[simp] theorem asked_after (rs : List Request) : s.asked (s.after rs) = rs := by
  simp [asked, after]

@[simp] theorem answered_after (rs : List Request) :
    s.answered (s.after rs) = s.replies rs.length := by
  rw [answered, asked_after]

theorem later_after (rs : List Request) : s.Later (s.after rs) := by
  rw [Later, asked_after]

@[simp] theorem asked_self : s.asked s = [] := by simp [asked]

@[simp] theorem answered_self : s.answered s = [] := by simp [answered]

theorem later_self : s.Later s := by simp [Later]

end

theorem Later.trans {s t u : Session} (h : s.Later t) (h' : t.Later u) : s.Later u := by
  rw [h', h, ← after_append]
  exact s.later_after _

theorem Later.asked_append {s t u : Session} (h : s.Later t) (h' : t.Later u) :
    s.asked u = s.asked t ++ t.asked u := by
  have hu : u = s.after (s.asked t ++ t.asked u) := by
    rw [after_append, ← h]
    exact h'
  calc s.asked u = s.asked (s.after (s.asked t ++ t.asked u)) := by rw [← hu]
    _ = s.asked t ++ t.asked u := s.asked_after _

theorem Later.answered_append {s t u : Session} (h : s.Later t) (h' : t.Later u) :
    s.answered u = s.answered t ++ t.answered u := by
  have ht : (s.after (s.asked t)).replies (t.asked u).length = t.answered u := by
    rw [← h]
    rfl
  rw [answered, h.asked_append h', List.length_append, replies_append, ht]
  rfl

end Cql.Session
