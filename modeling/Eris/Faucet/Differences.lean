import Eris.Foundation.InsertionMap
import Eris.Faucet.Registrations

/-!
# What a file of registrations adds

`core/src/realtime/registrations.ts`, `diffRegistrations`, and the poll of the
coordinator around it.  Every entry is marked as seen before it is compared
with what the run knows, so that a later entry of the same name or address is
a duplicate whatever became of the first one.
-/

namespace Eris.Faucet.Differences

open Foundation Foundation.BlockYaml Registrations

/-! ## The difference -/

/-- `toLowerCase` of an address, which is plain. -/
def toLowerCase (text : Text) : Text := text.map Char.toLower

@[simp]
theorem toLowerCase_toLowerCase (text : Text) :
    toLowerCase (toLowerCase text) = toLowerCase text := by
  simp [toLowerCase]

/-- The ids of the agents, and the owner of every attributed address in lower
case. -/
structure KnownField where
  ids : List Text
  addresses : InsertionMap Text Text
  lower : ∀ address ∈ addresses.keys, toLowerCase address = address

/-- An entry which is left out, with the reason. -/
structure Ignored where
  id : Text
  address : Text
  reason : String
deriving DecidableEq

structure RegistrationDiff where
  added : List Registration
  ignored : List Ignored
deriving DecidableEq

/-- What the loop over the entries has gathered. -/
structure Progress where
  diff : RegistrationDiff
  seenIds : List Text
  seenAddresses : List Text

def Progress.start : Progress := ⟨⟨[], []⟩, [], []⟩

def Progress.ignore
    (progress : Progress) (entry : Registration) (reason : String) :
    Progress :=
  { progress with
    diff.ignored :=
      progress.diff.ignored ++ [⟨entry.id, entry.address, reason⟩] }

/-- Mark the name and the address of an entry. -/
def Progress.see (progress : Progress) (entry : Registration) : Progress :=
  { progress with
    seenIds := entry.id :: progress.seenIds
    seenAddresses := toLowerCase entry.address :: progress.seenAddresses }

def Progress.add (progress : Progress) (entry : Registration) : Progress :=
  { progress with diff.added := progress.diff.added ++ [entry] }

local instance lawfulText : LawfulBEq Text := inferInstance

/-- Compare an entry with what the run knows. -/
def compareKnown
    (known : KnownField) (progress : Progress) (entry : Registration) :
    Progress :=
  let ownerOfAddress := known.addresses.get (toLowerCase entry.address)
  if entry.id ∈ known.ids ∧ ownerOfAddress = some entry.id then
    progress
  else if entry.id ∈ known.ids then
    progress.ignore entry ("id \"" ++ String.ofList entry.id ++
        "\" is already registered to a different address")
  else
    match ownerOfAddress with
    | some owner =>
        progress.ignore entry
          ("address already belongs to \"" ++ String.ofList owner ++ "\"")
    | none => progress.add entry

/-- The name or the address of an entry has come up before. -/
def Progress.Seen (progress : Progress) (entry : Registration) : Prop :=
  entry.id ∈ progress.seenIds ∨
    toLowerCase entry.address ∈ progress.seenAddresses

instance (progress : Progress) (entry : Registration) :
    Decidable (progress.Seen entry) :=
  inferInstanceAs (Decidable (_ ∨ _))

/-- One step of the loop over the entries. -/
def examine
    (known : KnownField) (progress : Progress) (entry : Registration) :
    Progress :=
  if progress.Seen entry then
    progress.ignore entry "duplicate within the registrations file"
  else
    compareKnown known (progress.see entry) entry

def examineAll (known : KnownField) (entries : List Registration) :
    Progress :=
  entries.foldl (examine known) .start

def diffRegistrations (entries : List Registration) (known : KnownField) :
    RegistrationDiff :=
  (examineAll known entries).diff

def KnownField.register (known : KnownField) (entry : Registration) :
    KnownField where
  ids := known.ids ++ [entry.id]
  addresses :=
    known.addresses.alter (toLowerCase entry.address) fun _ => entry.id
  lower := by
    intro address listed
    rw [InsertionMap.keys_alter] at listed
    split_ifs at listed
    · exact known.lower address listed
    · rcases List.mem_append.1 listed with old | new
      · exact known.lower address old
      · rw [List.mem_singleton.1 new, toLowerCase_toLowerCase]

def KnownField.merge (known : KnownField) (added : List Registration) :
    KnownField :=
  added.foldl KnownField.register known

variable {known later : KnownField} {progress again : Progress}
    {entry : Registration} {entries added : List Registration}

/-- The name or the address of an entry is known. -/
def KnownField.Taken (known : KnownField) (entry : Registration) : Prop :=
  entry.id ∈ known.ids ∨
    (known.addresses.get (toLowerCase entry.address)).isSome

theorem compareKnown_cases
    (known : KnownField) (progress : Progress) (entry : Registration) :
    (known.Taken entry ∧ (compareKnown known progress entry = progress ∨
        ∃ reason,
          compareKnown known progress entry = progress.ignore entry reason)) ∨
    (¬ known.Taken entry ∧
      compareKnown known progress entry = progress.add entry) := by
  rw [compareKnown]
  by_cases knownId : entry.id ∈ known.ids
  · left
    refine ⟨Or.inl knownId, ?_⟩
    by_cases same :
        known.addresses.get (toLowerCase entry.address) = some entry.id
    · left
      exact if_pos ⟨knownId, same⟩
    · right
      rw [if_neg (fun both => same both.2), if_pos knownId]
      exact ⟨_, rfl⟩
  · rw [if_neg (fun both => knownId both.1), if_neg knownId]
    cases owner : known.addresses.get (toLowerCase entry.address) with
    | some owner =>
        left
        refine ⟨Or.inr ?_, Or.inr ⟨_, rfl⟩⟩
        rw [owner]
        rfl
    | none =>
        right
        refine ⟨?_, rfl⟩
        rintro (listed | found)
        · exact knownId listed
        · rw [owner] at found
          cases found

theorem examineAll_snoc (entry : Registration) :
    examineAll known (entries ++ [entry]) =
      examine known (examineAll known entries) entry := by
  rw [examineAll, List.foldl_append]
  rfl

/-- What is added is new to the run, and no two of it share a name or an
address. -/
structure AddsApart
    (known : KnownField) (added : List Registration) : Prop where
  ids : (added.map Registration.id).Nodup
  addresses : (added.map fun entry => toLowerCase entry.address).Nodup
  fresh : ∀ entry ∈ added, ¬ known.Taken entry

structure Sound (known : KnownField) (progress : Progress) : Prop
    extends AddsApart known progress.diff.added where
  seen : ∀ entry ∈ progress.diff.added, entry.id ∈ progress.seenIds ∧
      toLowerCase entry.address ∈ progress.seenAddresses

theorem sound_start : Sound known .start :=
  ⟨⟨List.nodup_nil, List.nodup_nil, fun _ listed => nomatch listed⟩,
    fun _ listed => nomatch listed⟩

theorem Sound.see (sound : Sound known progress) (entry : Registration) :
    Sound known (progress.see entry) :=
  ⟨sound.toAddsApart, fun other listed =>
    ⟨List.mem_cons_of_mem _ (sound.seen other listed).1,
      List.mem_cons_of_mem _ (sound.seen other listed).2⟩⟩

theorem AddsApart.snoc
    (apart : AddsApart known added) (fresh : ¬ known.Taken entry)
    (newId : entry.id ∉ added.map Registration.id)
    (newAddress : toLowerCase entry.address ∉
        added.map fun entry => toLowerCase entry.address) :
    AddsApart known (added ++ [entry]) := by
  refine ⟨?_, ?_, ?_⟩
  · rw [List.map_append, List.map_singleton]
    exact List.nodup_append.2 ⟨apart.ids, List.nodup_singleton _, by
        rintro id listed other same rfl
        rw [List.mem_singleton.1 same] at listed
        exact newId listed⟩
  · rw [List.map_append, List.map_singleton]
    exact List.nodup_append.2 ⟨apart.addresses, List.nodup_singleton _, by
        rintro address listed other same rfl
        rw [List.mem_singleton.1 same] at listed
        exact newAddress listed⟩
  · intro other listed
    rcases List.mem_append.1 listed with old | new
    · exact apart.fresh other old
    · rw [List.mem_singleton.1 new]
      exact fresh

theorem Sound.examine
    (sound : Sound known progress) (entry : Registration) :
    Sound known (examine known progress entry) := by
  rw [Differences.examine]
  split_ifs with seen
  · exact ⟨sound.toAddsApart, sound.seen⟩
  · have marked := sound.see entry
    rcases compareKnown_cases known (progress.see entry) entry with
      ⟨-, equal | ⟨reason, equal⟩⟩ | ⟨fresh, equal⟩
    · rw [equal]
      exact marked
    · rw [equal]
      exact ⟨marked.toAddsApart, marked.seen⟩
    · rw [equal]
      refine ⟨sound.toAddsApart.snoc fresh ?_ ?_, ?_⟩
      · intro listed
        rcases List.mem_map.1 listed with ⟨other, member, same⟩
        exact seen (Or.inl (same ▸ (sound.seen other member).1))
      · intro listed
        rcases List.mem_map.1 listed with ⟨other, member, same⟩
        exact seen (Or.inr (same ▸ (sound.seen other member).2))
      · intro other listed
        rcases List.mem_append.1 listed with old | new
        · exact marked.seen other old
        · rw [List.mem_singleton.1 new]
          exact ⟨List.mem_cons_self, List.mem_cons_self⟩

theorem sound_examineAll (known : KnownField) (entries : List Registration) :
    Sound known (examineAll known entries) := by
  induction entries using List.reverseRecOn with
  | nil => exact sound_start
  | append_singleton entries entry ih =>
      rw [examineAll_snoc]
      exact ih.examine entry

/-! ## Polling again -/

/-- A later state of the run knows everything it knew and was given. -/
structure Extends
    (known later : KnownField) (added : List Registration) : Prop where
  kept : ∀ entry, known.Taken entry → later.Taken entry
  given : ∀ entry ∈ added, later.Taken entry

/-- The same entries are seen again, and nothing is added. -/
structure Repeats (progress again : Progress) : Prop where
  ids : again.seenIds = progress.seenIds
  addresses : again.seenAddresses = progress.seenAddresses
  nothing : again.diff.added = []

theorem compareKnown_seen
    (known : KnownField) (progress : Progress) (entry : Registration) :
    (compareKnown known progress entry).seenIds = progress.seenIds ∧
      (compareKnown known progress entry).seenAddresses =
        progress.seenAddresses := by
  rcases compareKnown_cases known progress entry with
    ⟨-, equal | ⟨reason, equal⟩⟩ | ⟨-, equal⟩ <;>
    rw [equal] <;>
    exact ⟨rfl, rfl⟩

theorem Repeats.examine
    (repeats : Repeats progress again)
    (kept : known.Taken entry → later.Taken entry)
    (given :
      entry ∈ (examine known progress entry).diff.added → later.Taken entry) :
    Repeats (examine known progress entry) (examine later again entry) := by
  have sameSeen : again.Seen entry ↔ progress.Seen entry := by
    rw [Progress.Seen, Progress.Seen, repeats.ids, repeats.addresses]
  rw [Differences.examine] at given ⊢
  rw [Differences.examine]
  by_cases seen : progress.Seen entry
  · rw [if_pos seen, if_pos (sameSeen.2 seen)]
    exact ⟨repeats.ids, repeats.addresses, repeats.nothing⟩
  · rw [if_neg seen] at given
    rw [if_neg seen, if_neg (fun before => seen (sameSeen.1 before))]
    have taken : later.Taken entry := by
      rcases compareKnown_cases known (progress.see entry) entry with
        ⟨old, -⟩ | ⟨-, equal⟩
      · exact kept old
      · apply given
        rw [equal]
        exact List.mem_append_right _ (List.mem_singleton_self entry)
    have marked := compareKnown_seen known (progress.see entry) entry
    have markedAgain := compareKnown_seen later (again.see entry) entry
    refine ⟨?_, ?_, ?_⟩
    · rw [markedAgain.1, marked.1]
      exact congrArg (entry.id :: ·) repeats.ids
    · rw [markedAgain.2, marked.2]
      exact congrArg (toLowerCase entry.address :: ·) repeats.addresses
    · rcases compareKnown_cases later (again.see entry) entry with
        ⟨-, equal | ⟨reason, equal⟩⟩ | ⟨free, -⟩
      · rw [equal]
        exact repeats.nothing
      · rw [equal]
        exact repeats.nothing
      · exact absurd taken free

/-- Further entries leave what was made of the earlier ones as it was. -/
structure Continues
    (first : RegistrationDiff) (more : List Registration)
    (whole : RegistrationDiff) : Prop where
  added : ∃ rest, whole.added = first.added ++ rest ∧ rest.Sublist more
  ignored : ∃ rest, whole.ignored = first.ignored ++ rest ∧
      (rest.map fun entry => (entry.id, entry.address)).Sublist
        (more.map fun entry => (entry.id, entry.address))

variable {first whole next : RegistrationDiff} {more : List Registration}

theorem Continues.refl (diff : RegistrationDiff) : Continues diff [] diff :=
  ⟨⟨[], (List.append_nil _).symm, List.Sublist.refl _⟩,
    ⟨[], (List.append_nil _).symm, List.Sublist.refl _⟩⟩

theorem Continues.trans
    {others : List Registration} (before : Continues first more whole)
    (after : Continues whole others next) :
    Continues first (more ++ others) next := by
  rcases before with
    ⟨⟨added, addedEq, addedSub⟩, ⟨ignored, ignoredEq, ignoredSub⟩⟩
  rcases after with
    ⟨⟨moreAdded, moreAddedEq, moreAddedSub⟩,
      ⟨moreIgnored, moreIgnoredEq, moreIgnoredSub⟩⟩
  constructor
  · refine ⟨added ++ moreAdded, ?_, addedSub.append moreAddedSub⟩
    rw [moreAddedEq, addedEq, List.append_assoc]
  · refine ⟨ignored ++ moreIgnored, ?_, ?_⟩
    · rw [moreIgnoredEq, ignoredEq, List.append_assoc]
    · rw [List.map_append, List.map_append]
      exact ignoredSub.append moreIgnoredSub

theorem continues_ignore
    (progress : Progress) (entry : Registration) (reason : String) :
    Continues progress.diff [entry] (progress.ignore entry reason).diff :=
  ⟨⟨[], (List.append_nil _).symm, List.nil_sublist _⟩,
    ⟨[⟨entry.id, entry.address, reason⟩], rfl, List.Sublist.refl _⟩⟩

theorem continues_examine
    (known : KnownField) (progress : Progress) (entry : Registration) :
    Continues progress.diff [entry] (examine known progress entry).diff := by
  rw [examine]
  split_ifs
  · exact continues_ignore progress entry _
  · rcases compareKnown_cases known (progress.see entry) entry with
      ⟨-, equal | ⟨reason, equal⟩⟩ | ⟨-, equal⟩
    · rw [equal]
      exact ⟨⟨[], (List.append_nil _).symm, List.nil_sublist _⟩,
        ⟨[], (List.append_nil _).symm, List.nil_sublist _⟩⟩
    · rw [equal]
      exact continues_ignore (progress.see entry) entry reason
    · rw [equal]
      exact ⟨⟨[entry], rfl, List.Sublist.refl _⟩,
        ⟨[], (List.append_nil _).symm, List.nil_sublist _⟩⟩

theorem continues_foldl
    (known : KnownField) (progress : Progress) (more : List Registration) :
    Continues progress.diff more
      (more.foldl (examine known) progress).diff := by
  induction more generalizing progress with
  | nil => exact .refl _
  | cons entry rest ih =>
      exact (continues_examine known progress entry).trans
        (ih (examine known progress entry))

theorem diffRegistrations_continues
    (known : KnownField) (entries more : List Registration) :
    Continues (diffRegistrations entries known) more
      (diffRegistrations (entries ++ more) known) := by
  rw [diffRegistrations, diffRegistrations, examineAll, examineAll,
    List.foldl_append]
  exact continues_foldl known _ more

theorem repeats_examineAll
    (known : KnownField) (entries : List Registration)
    (extension : Extends known later (diffRegistrations entries known).added) :
    Repeats (examineAll known entries) (examineAll later entries) := by
  induction entries using List.reverseRecOn with
  | nil => exact ⟨rfl, rfl, rfl⟩
  | append_singleton entries entry ih =>
      rcases (diffRegistrations_continues known entries [entry]).added with
        ⟨rest, equal, -⟩
      have before :
          Extends known later (diffRegistrations entries known).added :=
        ⟨extension.kept, fun other listed =>
          extension.given other (equal ▸ List.mem_append_left rest listed)⟩
      rw [examineAll_snoc, examineAll_snoc]
      apply (ih before).examine (extension.kept entry)
      intro listed
      apply extension.given
      rw [diffRegistrations, examineAll_snoc]
      exact listed

theorem taken_register (known : KnownField) (entry other : Registration) :
    (known.register entry).Taken other ↔
      known.Taken other ∨ other.id = entry.id ∨
        toLowerCase other.address = toLowerCase entry.address := by
  have ids : other.id ∈ (known.register entry).ids ↔
      other.id ∈ known.ids ∨ other.id = entry.id := by
    rw [KnownField.register, List.mem_append, List.mem_singleton]
  have addresses : ((known.register entry).addresses.get
        (toLowerCase other.address)).isSome ↔
      (known.addresses.get (toLowerCase other.address)).isSome ∨
        toLowerCase other.address = toLowerCase entry.address := by
    rw [KnownField.register]
    by_cases same : toLowerCase other.address = toLowerCase entry.address
    · simp [same]
    · simp [InsertionMap.get_alter_other same, same]
  rw [KnownField.Taken, ids, addresses, KnownField.Taken]
  tauto

theorem taken_merge
    (known : KnownField) (added : List Registration) (other : Registration) :
    (known.merge added).Taken other ↔ known.Taken other ∨
        other.id ∈ added.map Registration.id ∨ toLowerCase other.address ∈
            added.map fun entry => toLowerCase entry.address := by
  induction added generalizing known with
  | nil => simp [KnownField.merge]
  | cons entry rest ih =>
      rw [KnownField.merge, List.foldl_cons]
      refine (ih (known.register entry)).trans ?_
      rw [taken_register, List.map_cons, List.map_cons, List.mem_cons,
        List.mem_cons]
      tauto

theorem extends_merge (known : KnownField) (added : List Registration) :
    Extends known (known.merge added) added := by
  constructor
  · intro entry taken
    exact (taken_merge known added entry).2 (Or.inl taken)
  · intro entry listed
    exact (taken_merge known added entry).2
      (Or.inr (Or.inl (List.mem_map_of_mem listed)))

theorem address_of_not_taken
    (free : ¬ known.Taken entry) :
    ∀ address ∈ known.addresses.keys,
      toLowerCase address ≠ toLowerCase entry.address := by
  intro address listed same
  apply free
  right
  rw [← same, known.lower address listed]
  rcases List.mem_map.1 listed with ⟨owned, member, rfl⟩
  have found : known.addresses.get owned.1 = some owned.2 :=
    InsertionMap.get_eq_some.2 member
  rw [found]
  rfl

/-- What is added has names and addresses of its own, new to the run; the same
entries add nothing once it is merged, also if the run knows more by then;
further entries leave the outcome of the earlier ones as it was. -/
theorem diffRegistrations_stable
    (known : KnownField) (entries : List Registration) :
    (((diffRegistrations entries known).added.map Registration.id).Nodup ∧
      ((diffRegistrations entries known).added.map
        fun entry => toLowerCase entry.address).Nodup ∧
      ∀ entry ∈ (diffRegistrations entries known).added, entry.id ∉ known.ids ∧
          ∀ address ∈ known.addresses.keys,
            toLowerCase address ≠ toLowerCase entry.address) ∧
    (∀ others, (diffRegistrations entries
        ((known.merge (diffRegistrations entries known).added).merge
          others)).added = []) ∧
    ∀ more, Continues (diffRegistrations entries known) more
        (diffRegistrations (entries ++ more) known) := by
  have sound := sound_examineAll known entries
  refine ⟨⟨sound.ids, sound.addresses, ?_⟩, ?_, ?_⟩
  · intro entry listed
    have free := sound.fresh entry listed
    exact ⟨fun knownId => free (Or.inl knownId), address_of_not_taken free⟩
  · intro others
    have merged := extends_merge known (diffRegistrations entries known).added
    have further := extends_merge
        (known.merge (diffRegistrations entries known).added) others
    exact (repeats_examineAll known entries
      ⟨fun entry taken => further.kept entry (merged.kept entry taken),
        fun entry listed =>
            further.kept entry (merged.given entry listed)⟩).nothing
  · exact diffRegistrations_continues known entries

/-- A read of the file, and for which of the new agents funding succeeds. -/
structure Poll where
  entries : List Registration
  funded : Registration → Bool

def registered (known : KnownField) (poll : Poll) : List Registration :=
  (diffRegistrations poll.entries known).added.filter poll.funded

/-- What all polls register, one after another. -/
def registeredAll (known : KnownField) : List Poll → List Registration
  | [] => []
  | poll :: rest =>
      registered known poll ++
        registeredAll (known.merge (registered known poll)) rest

end Eris.Faucet.Differences
