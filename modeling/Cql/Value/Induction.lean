import Cql.Value

/-!
# Induction on values

A value is made from parts that stand in lists, some with a key or a name.  `Value.ind` is the
induction that meets them there: whoever proves something of a list, a set, a tuple, a map or a
record knows it of every member.  It is what `induction v with` uses.
-/

namespace Cql.Value

/-- what holds of every scalar, and of whatever holds of all its parts, holds of every value -/
@[induction_eliminator]
theorem ind {motive : Value → Prop}
    (null : motive null) (unset : motive unset) (bool : ∀ b, motive (bool b))
    (tinyInt : ∀ n, motive (tinyInt n)) (smallInt : ∀ n, motive (smallInt n))
    (int : ∀ n, motive (int n)) (bigInt : ∀ n, motive (bigInt n))
    (counter : ∀ n, motive (counter n)) (float : ∀ bits, motive (float bits))
    (double : ∀ bits, motive (double bits)) (text : ∀ s, motive (text s))
    (blob : ∀ bytes, motive (blob bytes)) (uuid : ∀ u, motive (uuid u))
    (timeUuid : ∀ u, motive (timeUuid u)) (date : ∀ d, motive (date d))
    (time : ∀ t, motive (time t)) (timestamp : ∀ t, motive (timestamp t))
    (inet : ∀ a, motive (inet a))
    (list : ∀ xs, (∀ x ∈ xs, motive x) → motive (list xs))
    (set : ∀ xs, (∀ x ∈ xs, motive x) → motive (set xs))
    (map : ∀ es, (∀ e ∈ es, motive e.1 ∧ motive e.2) → motive (map es))
    (tuple : ∀ xs, (∀ x ∈ xs, motive x) → motive (tuple xs))
    (udt : ∀ name fs, (∀ f ∈ fs, motive f.2) → motive (udt name fs)) (v : Value) : motive v :=
  @Value.rec motive (fun xs => ∀ x ∈ xs, motive x) (fun es => ∀ e ∈ es, motive e.1 ∧ motive e.2)
    (fun fs => ∀ f ∈ fs, motive f.2) (fun e => motive e.1 ∧ motive e.2) (fun f => motive f.2)
    null unset bool tinyInt smallInt int bigInt counter float double text blob uuid timeUuid date
    time timestamp inet list set map tuple udt
    (fun _ h => nomatch h) (fun _ _ hx hxs => List.forall_mem_cons.2 ⟨hx, hxs⟩)
    (fun _ h => nomatch h) (fun _ _ he hes => List.forall_mem_cons.2 ⟨he, hes⟩)
    (fun _ h => nomatch h) (fun _ _ hf hfs => List.forall_mem_cons.2 ⟨hf, hfs⟩)
    (fun _ _ hk hv => ⟨hk, hv⟩) (fun _ _ hv => hv) v

end Cql.Value
