import Cql.Host

/-!
# Induction on host data

Host data is made from parts as values are: whoever proves something of a list, a set, a tuple, a
map or a record knows it of every member, and of optional data what it knows of the data within.
It is what `induction x with` uses.
-/

namespace Cql.Host

/-- what holds of everything without parts, and of whatever holds of all its parts, holds of all
host data -/
@[induction_eliminator]
theorem ind {motive : Host → Prop} (value : ∀ v, motive (value v)) (unset : motive unset)
    (unit : motive unit) (ignored : motive ignored) (bool : ∀ b, motive (bool b))
    (int : ∀ n, motive (int n)) (single : ∀ bits, motive (single bits))
    (double : ∀ bits, motive (double bits)) (char : ∀ c, motive (char c))
    (string : ∀ s, motive (string s)) (blob : ∀ bytes, motive (blob bytes))
    (uuid : ∀ u, motive (uuid u)) (timeUuid : ∀ u, motive (timeUuid u))
    (inet : ∀ a, motive (inet a)) (date : ∀ d, motive (date d)) (time : ∀ t, motive (time t))
    (timestamp : ∀ t, motive (timestamp t)) (tinyInt : ∀ n, motive (tinyInt n))
    (smallInt : ∀ n, motive (smallInt n)) (bigInt : ∀ n, motive (bigInt n))
    (counter : ∀ n, motive (counter n)) (variant : ∀ typeName name, motive (variant typeName name))
    (none : motive none) (some : ∀ x, motive x → motive (some x))
    (list : ∀ xs, (∀ x ∈ xs, motive x) → motive (list xs))
    (set : ∀ xs, (∀ x ∈ xs, motive x) → motive (set xs))
    (map : ∀ es, (∀ e ∈ es, motive e.1 ∧ motive e.2) → motive (map es))
    (tuple : ∀ xs, (∀ x ∈ xs, motive x) → motive (tuple xs))
    (record : ∀ typeName names xs, (∀ x ∈ xs, motive x) → motive (record typeName names xs))
    (x : Host) : motive x :=
  @Host.rec motive (fun xs => ∀ x ∈ xs, motive x) (fun es => ∀ e ∈ es, motive e.1 ∧ motive e.2)
    (fun e => motive e.1 ∧ motive e.2)
    value unset unit ignored bool int single double char string blob uuid timeUuid inet date time
    timestamp tinyInt smallInt bigInt counter variant none some list set map tuple record
    (fun _ h => nomatch h) (fun _ _ hx hxs => List.forall_mem_cons.2 ⟨hx, hxs⟩)
    (fun _ h => nomatch h) (fun _ _ he hes => List.forall_mem_cons.2 ⟨he, hes⟩)
    (fun _ _ hk hv => ⟨hk, hv⟩) x

end Cql.Host
