import Eris.Foundation.Validation

/-!
# Objects read by rules

A reader of an object which goes through a list of rules.  Each rule looks at
one member.  It passes over some values and writes a fixed one in their place,
or none; of the others it makes its tests, refuses with the text of the first
which fails, and writes the value as it is.  Rules which accept what they write
can read their own result again.
-/

namespace Eris.Foundation.Validation

/-- A test of a rule and the text of its refusal. -/
structure FieldTest where
  holds : Option Doc → Bool
  refusal : String

/-- The rule for one member of an object. -/
structure Rule where
  key : String
  skips : Option Doc → Bool
  written : Option Doc
  tests : List FieldTest

variable {rule : Rule} {rules : List Rule} {head : String × Doc} {built : Doc}

namespace Rule

/-- What a rule writes for a value, or why it refuses the value. -/
def read (rule : Rule) (value : Option Doc) :
    Except String (Option Doc) :=
  if rule.skips value then .ok rule.written
  else
    match rule.tests.find? fun test => !test.holds value with
    | some test => .error test.refusal
    | none => .ok value

def accepts (rule : Rule) (value : Option Doc) : Bool :=
  rule.skips value || rule.tests.all fun test => test.holds value

/-- A member which has to pass its tests. -/
def required (key : String) (tests : List FieldTest) : Rule where
  key := key
  skips _ := false
  written := none
  tests := tests

def optional (key : String) (tests : List FieldTest) : Rule where
  key := key
  skips := Option.isNone
  written := none
  tests := tests

/-- A member which is written when it passes a test and left out otherwise. -/
def kept (key : String) (test : Option Doc → Bool) : Rule where
  key := key
  skips value := !test value
  written := none
  tests := []

/-- A member which is written whatever was read. -/
def fixed (key : String) (value : Doc) : Rule where
  key := key
  skips _ := true
  written := some value
  tests := []

theorem read_of_accepts
    {value : Option Doc} (accepted : rule.accepts value = true) :
    rule.read value =
      .ok (if rule.skips value then rule.written else value) := by
  unfold read
  split
  · rfl
  · next unskipped =>
      have passes : rule.tests.find? (fun test => !test.holds value) = none := by
        simpa [accepts, unskipped] using accepted
      rw [passes]

theorem read_isOk (rule : Rule) (value : Option Doc) :
    (rule.read value).isOk = rule.accepts value := by
  cases accepted : rule.accepts value with
  | true => rw [read_of_accepts accepted]; rfl
  | false =>
      obtain ⟨unskipped, failing⟩ : rule.skips value = false ∧
        ∃ test ∈ rule.tests, test.holds value = false := by
        simpa [accepts] using accepted
      unfold read
      rw [unskipped, if_neg Bool.false_ne_true]
      cases found : rule.tests.find? fun test => !test.holds value with
      | some test => rfl
      | none =>
          obtain ⟨test, listed, fails⟩ := failing
          have passes := List.find?_eq_none.mp found test listed
          rw [fails] at passes
          exact absurd rfl passes

theorem accepts_of_read
    {value written : Option Doc} (read : rule.read value = .ok written) :
    rule.accepts value = true := by
  rw [← read_isOk, read]
  rfl

/-- A rule accepts what it writes for the values it passes over. -/
def Settled (rule : Rule) : Prop :=
  ∀ value, rule.skips value = true → rule.accepts rule.written = true

theorem settled_required (key : String) (tests : List FieldTest) :
    (required key tests).Settled := by
  intro value skipped
  exact absurd skipped Bool.false_ne_true

theorem settled_optional (key : String) (tests : List FieldTest) :
    (optional key tests).Settled := by
  intro value skipped
  rfl

theorem settled_kept (key : String) (test : Option Doc → Bool) :
    (kept key test).Settled := by
  intro value skipped
  simp [accepts, kept]

theorem settled_fixed (key : String) (value : Doc) :
    (fixed key value).Settled := by
  intro other skipped
  rfl

theorem Settled.accepts_read
    (settled : rule.Settled) {value written : Option Doc}
    (read : rule.read value = .ok written) :
    rule.accepts written = true := by
  have accepted := accepts_of_read read
  have result := (read_of_accepts accepted).symm.trans read
  cases skipped : rule.skips value with
  | true =>
      obtain rfl : rule.written = written := by
        simpa [skipped] using result
      exact settled value skipped
  | false =>
      obtain rfl : value = written := by
        simpa [skipped] using result
      exact accepted

end Rule

/-- The members written by the rules, in their order. -/
def readRules :
    List Rule → Doc → Except String (List (String × Doc))
  | [], _ => .ok []
  | rule :: rules, value =>
      (rule.read (member rule.key value)).bind fun written =>
        (readRules rules value).map fun members =>
          match written with
          | some doc => (rule.key, doc) :: members
          | none => members

/-- The object with a first member, then those written by the rules. -/
def readObject (head : String × Doc) (rules : List Rule) (value : Doc) :
    Except String Doc :=
  (readRules rules value).map fun members => .object (head :: members)

theorem readRules_isOk (rules : List Rule) (value : Doc) :
    (readRules rules value).isOk =
      rules.all fun rule => rule.accepts (member rule.key value) := by
  induction rules with
  | nil => rfl
  | cons rule rules rulesOk =>
      rw [List.all_cons, ← Rule.read_isOk, ← rulesOk, readRules]
      cases rule.read (member rule.key value) with
      | error refusal => rfl
      | ok written => cases readRules rules value <;> rfl

theorem readObject_isOk
    (head : String × Doc) (rules : List Rule) (value : Doc) :
    (readObject head rules value).isOk =
      rules.all fun rule => rule.accepts (member rule.key value) := by
  rw [← readRules_isOk, readObject]
  cases readRules rules value <;> rfl

theorem lookup_of_not_mem
    {value : Doc} {members : List (String × Doc)}
    (read : readRules rules value = .ok members)
    {key : String} (absent : key ∉ rules.map Rule.key) :
    members.lookup key = none := by
  induction rules generalizing members with
  | nil =>
      cases read
      rfl
  | cons rule rules ih =>
      have other : key ≠ rule.key := by
        rintro rfl
        exact absent List.mem_cons_self
      have absentRest : key ∉ rules.map Rule.key := fun later =>
        absent (List.mem_cons_of_mem _ later)
      rw [readRules] at read
      cases first : rule.read (member rule.key value) with
      | error refusal => rw [first] at read; cases read
      | ok written =>
          cases rest : readRules rules value with
          | error refusal => rw [first, rest] at read; cases read
          | ok restMembers =>
              rw [first, rest] at read
              have restNone := ih rest absentRest
              cases written with
              | none => cases read; exact restNone
              | some doc =>
                  cases read
                  rw [List.lookup_cons, beq_false_of_ne other]
                  exact restNone

theorem lookup_of_mem
    {value : Doc} {members : List (String × Doc)}
    (read : readRules rules value = .ok members)
    (distinct : (rules.map Rule.key).Nodup) (listed : rule ∈ rules) :
    rule.read (member rule.key value) = .ok (members.lookup rule.key) := by
  induction rules generalizing members with
  | nil => cases listed
  | cons front rules ih =>
      obtain ⟨frontNew, restDistinct⟩ := List.nodup_cons.mp distinct
      rw [readRules] at read
      cases first : front.read (member front.key value) with
      | error refusal => rw [first] at read; cases read
      | ok written =>
          cases rest : readRules rules value with
          | error refusal => rw [first, rest] at read; cases read
          | ok restMembers =>
              rw [first, rest] at read
              rcases List.mem_cons.mp listed with rfl | later
              · rw [first]
                have restNone := lookup_of_not_mem rest frontNew
                cases written with
                | none => cases read; rw [restNone]
                | some doc => cases read; simp
              · have restRead := ih rest restDistinct later
                have other : rule.key ≠ front.key := by
                  rintro same
                  exact frontNew (same ▸ List.mem_map_of_mem later)
                rw [restRead]
                cases written with
                | none => cases read; rfl
                | some doc =>
                    cases read
                    rw [List.lookup_cons, beq_false_of_ne other]

theorem written_of_readObject
    {value : Doc} (read : readObject head rules value = .ok built) :
    ∃ written, readRules rules value = .ok written ∧
      built = .object (head :: written) := by
  rw [readObject] at read
  cases members : readRules rules value with
  | error refusal => rw [members] at read; cases read
  | ok written =>
      rw [members] at read
      exact ⟨written, rfl, (Except.ok.inj read).symm⟩

/-- What rules have written under a first member, each rule accepts. -/
structure Kept (head : String × Doc) (rules : List Rule) : Prop where
  settled : ∀ rule ∈ rules, rule.Settled
  distinct : (head.1 :: rules.map Rule.key).Nodup

theorem member_readObject
    {value : Doc} (kept : Kept head rules)
    (read : readObject head rules value = .ok built) (listed : rule ∈ rules) :
    rule.read (member rule.key value) = .ok (member rule.key built) := by
  obtain ⟨headNew, distinct⟩ := List.nodup_cons.mp kept.distinct
  obtain ⟨written, members, rfl⟩ := written_of_readObject read
  have other : rule.key ≠ head.1 := by
    rintro same
    exact headNew (same ▸ List.mem_map_of_mem listed)
  rw [lookup_of_mem members distinct listed]
  obtain ⟨key, doc⟩ := head
  simp only [member, List.lookup_cons, beq_false_of_ne other]

theorem head_readObject
    {value : Doc} (read : readObject head rules value = .ok built) :
    member head.1 built = some head.2 := by
  obtain ⟨written, members, rfl⟩ := written_of_readObject read
  obtain ⟨key, doc⟩ := head
  simp [member]

theorem member_of_not_mem
    {value : Doc} (read : readObject head rules value = .ok built)
    {key : String} (absent : key ∉ head.1 :: rules.map Rule.key) :
    member key built = none := by
  obtain ⟨written, members, rfl⟩ := written_of_readObject read
  have unwritten : written.lookup key = none :=
    lookup_of_not_mem members fun listed =>
      absent (List.mem_cons_of_mem _ listed)
  have other : key ≠ head.1 := by
    rintro rfl
    exact absent List.mem_cons_self
  obtain ⟨headKey, doc⟩ := head
  simp only [member, List.lookup_cons, beq_false_of_ne other, unwritten]

theorem readObject_again
    {value : Doc} (kept : Kept head rules)
    (read : readObject head rules value = .ok built) :
    (readObject head rules built).isOk = true := by
  rw [readObject_isOk, List.all_eq_true]
  intro rule listed
  exact (kept.settled rule listed).accepts_read
    (member_readObject kept read listed)

theorem member_required
    {value : Doc} (kept : Kept head rules)
    (read : readObject head rules value = .ok built) (listed : rule ∈ rules)
    (unskipped : ∀ other, rule.skips other = false) :
    member rule.key built = member rule.key value := by
  have result := member_readObject kept read listed
  have written := Rule.read_of_accepts (Rule.accepts_of_read result)
  rw [result, unskipped, if_neg Bool.false_ne_true] at written
  exact Except.ok.inj written

end Eris.Foundation.Validation
