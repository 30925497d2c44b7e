import Eris.Faucet.Registrations

/-!
# What the faucet writes, the coordinator reads

The id of an entry is written without quotes, and an id which YAML takes for
something other than a string makes the coordinator refuse the whole file.
With any other id the file goes on being read, entry by entry, and the id and
the address are taken.
-/

namespace Eris.Faucet.Reading

open Foundation Foundation.IntegerText Foundation.BlockYaml Registrations

/-! ## The entry -/

def description (request : Request) : Text :=
  "registered ".toList ++ request.date.text ++ " via the faucet bot".toList

def idField (request : Request) : Field := ⟨"id".toList, .plain request.agentId⟩

def otherFields (request : Request) : List Field :=
  [⟨"address".toList, .quoted request.address⟩,
    ⟨"description".toList, .plain (description request)⟩]

theorem entryLines_eq (request : Request) :
    entryLines request =
      '\n' :: entryText (idField request) (otherFields request) := by
  have first : "\n- id: ".toList = '\n' :: '-' :: ' ' :: "id: ".toList := by
    decide
  have marks :
      "\n  address: \"".toList = '\n' :: ' ' :: ' ' :: "address: \"".toList ∧
        "\"\n  description: registered ".toList =
          '"' :: '\n' :: ' ' :: ' ' :: "description: registered ".toList ∧
        " via the faucet bot\n".toList =
          " via the faucet bot".toList ++ ['\n'] := by
    decide
  have keys : "id: ".toList = "id".toList ++ [':', ' '] ∧
      "address: \"".toList = "address".toList ++ [':', ' ', '"'] ∧
      "description: registered ".toList =
        "description".toList ++ ':' :: ' ' :: "registered ".toList := by
    decide
  unfold entryLines entryText idField otherFields description
  simp only [laterLines, Field.line, Written.text, first, marks, keys,
    List.append_assoc, List.cons_append, List.nil_append]

/-- What the entry of a request stands for. -/
def entryOf (request : Request) : Doc :=
  entryDoc (idField request) (otherFields request)

variable {agentId : Text} {request : Request}

theorem agentId_simple (valid : AGENT_ID_RE agentId = true) :
    (∃ first rest, agentId = first :: rest ∧ first.isAlphanum = true) ∧
      ∀ char ∈ agentId, wordChar char = true := by
  cases agentId with
  | nil => cases valid
  | cons first rest =>
      unfold AGENT_ID_RE at valid
      rw [Bool.and_eq_true, Bool.and_eq_true] at valid
      refine ⟨⟨first, rest, rfl, valid.1.1⟩, ?_⟩
      intro char listed
      rcases List.mem_cons.mp listed with rfl | later
      · unfold wordChar
        rw [valid.1.1]
        rfl
      · exact List.all_eq_true.mp valid.2 char later

theorem alphanum_of_hexDigit {char : Char} (digit : hexDigit char = true) :
    char.isAlphanum = true := by
  unfold hexDigit at digit
  unfold Char.isAlphanum Char.isAlpha Char.isUpper Char.isLower
  simp only [Bool.or_eq_true, Bool.and_eq_true, decide_eq_true_eq] at digit ⊢
  rcases digit with (digit | ⟨low, high⟩) | ⟨low, high⟩
  · exact .inr digit
  · exact .inl (.inr ⟨low, le_trans high (by decide)⟩)
  · exact .inl (.inl ⟨low, le_trans high (by decide)⟩)

theorem address_simple {address : Text} (valid : ADDRESS_RE address = true) :
    ∀ char ∈ address, char.isAlphanum = true := by
  unfold ADDRESS_RE at valid
  split at valid
  · rename_i digits
    rw [Bool.and_eq_true] at valid
    intro char listed
    rcases List.mem_cons.mp listed with rfl | listed
    · decide
    · rcases List.mem_cons.mp listed with rfl | listed
      · decide
      · exact alphanum_of_hexDigit (List.all_eq_true.mp valid.2 char listed)
  · cases valid

theorem description_cons (request : Request) :
    ∃ rest, description request = 'r' :: rest := by
  refine ⟨"egistered ".toList ++ request.date.text ++
    " via the faucet bot".toList, ?_⟩
  have first : "registered ".toList = 'r' :: "egistered ".toList := by decide
  unfold description
  rw [first]
  rfl

theorem description_simple (request : Request) :
    (Written.plain (description request)).Simple := by
  rcases description_cons request with ⟨rest, starts⟩
  refine ⟨⟨'r', rest, starts, by decide⟩, ?_, ?_⟩
  · have before : ("registered ".toList.all fun char =>
          wordChar char || char == ' ') = true := by
      decide
    have after : (" via the faucet bot".toList.all fun char =>
          wordChar char || char == ' ') = true := by
      decide
    have word {text : Text} {char : Char} (words : (text.all fun char =>
          wordChar char || char == ' ') = true)
        (listed : char ∈ text) : wordChar char = true ∨ char = ' ' := by
      simpa using List.all_eq_true.mp words char listed
    intro char listed
    unfold description at listed
    rcases List.mem_append.mp listed with listed | listed
    · rcases List.mem_append.mp listed with listed | listed
      · exact word before listed
      · have plain := List.all_eq_true.mp request.date.plain char listed
        rw [Bool.or_eq_true, beq_iff_eq] at plain
        rcases plain with digit | hyphen
        · left
          unfold wordChar Char.isAlphanum
          rw [digit, Bool.or_true]
          rfl
        · subst hyphen
          left
          decide
    · exact word after listed
  · have ends :
        " via the faucet bot".toList = " via the faucet bo".toList ++ ['t'] := by
      decide
    unfold description
    rw [ends, ← List.append_assoc, List.getLast?_concat]
    decide

theorem fields_simple
    (id : AGENT_ID_RE request.agentId = true)
    (address : ADDRESS_RE request.address = true) :
    ∀ field ∈ idField request :: otherFields request, field.Simple := by
  have words := agentId_simple id
  have keys : StandsForItself "id".toList ∧ StandsForItself "address".toList ∧
      StandsForItself "description".toList := by
    decide
  have letters : "id".toList.all Char.isAlpha = true ∧
      "address".toList.all Char.isAlpha = true ∧
      "description".toList.all Char.isAlpha = true := by
    decide
  unfold idField otherFields
  simp only [List.forall_mem_cons, List.not_mem_nil, false_imp_iff,
    implies_true, and_true]
  refine ⟨⟨keys.1, List.all_eq_true.mp letters.1, words.1, fun char listed =>
        .inl (words.2 char listed), ?_⟩,
      ⟨keys.2.1, List.all_eq_true.mp letters.2.1, address_simple address⟩,
      ⟨keys.2.2, List.all_eq_true.mp letters.2.2, description_simple request⟩⟩
  intro last
  exact absurd (words.2 ' ' (List.mem_of_getLast? last)) (by decide)

/-! ## The entry is read -/

theorem standsForItself_of_first (rest : Text) :
    StandsForItself ('r' :: rest) := by
  have decimal : decimalNumber ('r' :: rest) = false := by
    have mantissas (others : Text) : mantissa ('r' :: others) = false := by
      unfold mantissa
      rw [List.span_eq_takeWhile_dropWhile,
        List.takeWhile_cons_of_neg (by decide),
        List.dropWhile_cons_of_neg (by decide)]
      rfl
    have unmarked : unsigned ('r' :: rest) = 'r' :: rest := rfl
    rw [decimalNumber, unmarked, List.span_eq_takeWhile_dropWhile,
      List.takeWhile_cons_of_pos (by decide),
      List.dropWhile_cons_of_pos (by decide)]
    split
    · rename_i parts
      rw [← (Prod.mk.inj parts).1]
      exact mantissas _
    · rename_i parts
      rw [← (Prod.mk.inj parts).1, mantissas]
      rfl
  have texts : 'r' :: rest ∉ nullTexts ∧ 'r' :: rest ∉ trueTexts ∧
      'r' :: rest ∉ falseTexts := by
    have heads : ∀ text ∈ nullTexts ++ trueTexts ++ falseTexts,
        text.head? ≠ some 'r' := by
      decide
    refine ⟨?_, ?_, ?_⟩ <;> intro listed
    · exact heads _ (List.mem_append_left _ (List.mem_append_left _ listed)) rfl
    · exact
        heads _ (List.mem_append_left _ (List.mem_append_right _ listed)) rfl
    · exact heads _ (List.mem_append_right _ listed) rfl
  have plain : special ('r' :: rest) = false := by
    have heads : ∀ text ∈ [".inf".toList, ".Inf".toList, ".INF".toList,
          ".nan".toList, ".NaN".toList, ".NAN".toList],
        text.head? = some '.' := by
      decide
    unfold special
    rw [Bool.or_eq_false_iff]
    constructor
    · rw [List.contains_eq_mem, decide_eq_false_iff_not]
      intro listed
      have head := heads ('r' :: rest) (by
        simp only [List.mem_cons, List.not_mem_nil, or_false] at listed ⊢
        tauto)
      exact absurd head (by simp)
    · rw [List.contains_eq_mem, decide_eq_false_iff_not]
      intro listed
      have head := heads ('r' :: rest) (by
        simp only [List.mem_cons, List.not_mem_nil, or_false] at listed ⊢
        tauto)
      exact absurd head (by simp)
  unfold StandsForItself resolvePlain
  rw [if_neg texts.1, if_neg texts.2.1, if_neg texts.2.2, decimal, plain]
  rfl

def registered (request : Request) : Registration where
  id := request.agentId
  address := request.address
  participant := none
  description := some (description request)

theorem blankText_agentId
    (valid : AGENT_ID_RE agentId = true) :
    blankText agentId = false := by
  rcases (agentId_simple valid).1 with ⟨first, rest, rfl, word⟩
  unfold blankText
  rw [decide_eq_false_iff_not]
  intro nothing
  have blanks := blank_of_trimmed nothing first List.mem_cons_self
  have solid : blank first = false := by
    unfold Char.isAlphanum Char.isAlpha Char.isUpper Char.isLower
      Char.isDigit at word
    simp only [Bool.or_eq_true, Bool.and_eq_true, decide_eq_true_eq,
      UInt32.le_iff_toNat_le, ge_iff_le] at word
    change (((65 ≤ first.toNat ∧ first.toNat ≤ 90) ∨
      (97 ≤ first.toNat ∧ first.toNat ≤ 122)) ∨
      (48 ≤ first.toNat ∧ first.toNat ≤ 57)) at word
    unfold blank
    simp only [Bool.or_eq_false_iff, Bool.and_eq_false_iff,
      decide_eq_false_iff_not, List.contains_eq_mem, List.mem_cons,
      List.not_mem_nil, or_false]
    omega
  rw [solid] at blanks
  cases blanks

theorem member_entryOf (request : Request) :
    member "id" (entryOf request) =
        some (.scalar (resolvePlain request.agentId)) ∧
      member "address" (entryOf request) =
        some (.scalar (.string request.address)) ∧
      member "description" (entryOf request) =
        some (.scalar (resolvePlain (description request))) ∧
      member "external" (entryOf request) = none ∧
      member "participant" (entryOf request) = none ∧
      spawnField (entryOf request) = none :=
  ⟨rfl, rfl, rfl, rfl, rfl, rfl⟩

/-- The entry is read where the id stands for itself, and refused where it
does not. -/
theorem parseEntry_entryOf
    (id : AGENT_ID_RE request.agentId = true)
    (address : ADDRESS_RE request.address = true) (label : String) :
    parseEntry label (entryOf request) =
      if StandsForItself request.agentId then .ok (registered request)
      else .error s!"{label}.id must be a non-empty string" := by
  have fields := member_entryOf request
  have plain : resolvePlain (description request) =
      .string (description request) := by
    rcases description_cons request with ⟨rest, starts⟩
    rw [starts]
    exact standsForItself_of_first rest
  have addressed : addressString (member "address" (entryOf request)) =
      some request.address := by
    rw [fields.2.1]
    unfold addressString
    exact if_pos address
  have described :
      descriptionOf label (member "description" (entryOf request)) =
        .ok (some (description request)) := by
    rw [fields.2.2.1, plain]
    rfl
  have unfolded : parseEntry label (entryOf request) =
      (filledString (member "id" (entryOf request))).elim
        (.error s!"{label}.id must be a non-empty string") fun id =>
          .ok ⟨id, request.address, none, some (description request)⟩ := by
    have shape : ∃ members, entryOf request = .object members := ⟨_, rfl⟩
    rcases shape with ⟨members, shape⟩
    rw [shape] at addressed fields described ⊢
    rw [parseEntry]
    cases filledString (member "id" (.object members)) with
    | none => rfl
    | some id =>
        dsimp only
        rw [addressed, fields.2.2.2.1, fields.2.2.2.2.2, fields.2.2.2.2.1,
          described]
        rfl
  rw [unfolded, fields.1]
  by_cases itself : StandsForItself request.agentId
  · rw [if_pos itself, itself]
    have filled : filledString (some (.scalar (.string request.agentId))) =
        some request.agentId := by
      change (if blankText request.agentId then none
          else some request.agentId) = _
      rw [blankText_agentId id]
      rfl
    rw [filled]
    rfl
  · rw [if_neg itself]
    have other : filledString (some (.scalar (resolvePlain request.agentId))) =
        none := by
      unfold filledString
      split
      · rename_i text same
        have string : resolvePlain request.agentId = .string text :=
          Json.scalar.inj (Option.some.inj same)
        have resolved := string
        unfold resolvePlain at resolved
        split_ifs at resolved
        exact absurd (string.trans (congrArg _ (Scalar.string.inj resolved).symm))
          itself
      · rfl
    rw [other, Option.elim_none]

/-! ## The file -/

theorem parseEntries_append
    (path : String) (index : Nat) (entries : List Doc) (entry : Doc) :
    parseEntries path index (entries ++ [entry]) =
      (parseEntries path index entries).bind fun first =>
        (parseEntry s!"{path} [{index + entries.length}]" entry).bind
          fun last => .ok (first ++ [last]) := by
  induction entries generalizing index with
  | nil =>
      change (parseEntry s!"{path} [{index + 0}]" entry).bind _ = _
      rw [Nat.add_zero]
      rfl
  | cons head entries ih =>
      rw [List.cons_append, parseEntries, parseEntries,
        ih, List.length_cons, Nat.add_right_comm index 1,
        ← Nat.add_assoc index entries.length 1]
      cases parseEntry s!"{path} [{index}]" head with
      | error text => rfl
      | ok first =>
          cases parseEntries path (index + 1) entries with
          | error text => rfl
          | ok rest =>
              cases parseEntry s!"{path} [{index + entries.length + 1}]"
                entry with
              | error text => rfl
              | ok last => rfl

section Runs

variable {reader : Reader} {path : String} {toLowerCase : Text → Text}
    {printed : Option Doc → Text} {earlier : List Registration}
    {held : List Doc} {desk : Desk}

theorem parseRegistrations_of_items
    {file : Text} (lists : readRegistrations reader file = some held) :
    parseRegistrations reader path file = parseEntries path 0 held := by
  rcases Option.bind_eq_some_iff.mp lists with ⟨doc, reads, listed⟩
  have arrays : doc = .array held ∨ doc = .scalar .null ∧ held = [] := by
    unfold items at listed
    split at listed
    · exact .inl (congrArg Json.array (Option.some.inj listed))
    · exact .inr ⟨rfl, (Option.some.inj listed).symm⟩
    · cases listed
  unfold parseRegistrations
  rcases arrays with rfl | ⟨rfl, rfl⟩
  · have filled : ¬ blankText file = true := by
      intro blanks
      exact reader.blank file held (of_decide_eq_true blanks) reads
    rw [if_neg filled, reads]
    rfl
  · rw [reads]
    split <;> rfl

theorem readRegistrations_append
    {file : Text} (block : reader.BlockList file)
    (lists : readRegistrations reader file = some held)
    (id : AGENT_ID_RE request.agentId = true)
    (address : ADDRESS_RE request.address = true) :
    readRegistrations reader (file ++ entryLines request) =
        some (held ++ [entryOf request]) ∧
      reader.BlockList (file ++ entryLines request) := by
  rcases Option.bind_eq_some_iff.mp lists with ⟨doc, reads, listed⟩
  have distinct :
      ((idField request :: otherFields request).map Field.key).Nodup := by
    change ["id".toList, "address".toList, "description".toList].Nodup
    decide
  have appended :=
    reader.append file doc held (idField request) (otherFields request)
      block reads listed (fields_simple id address) distinct
  rw [entryLines_eq]
  unfold readRegistrations
  rw [appended.1]
  exact ⟨rfl, appended.2⟩

theorem checked_of_accepted
    {claimed : List Text}
    (accepted :
      checkRequest toLowerCase printed request held claimed = some .accepted) :
    AGENT_ID_RE request.agentId = true ∧ ADDRESS_RE request.address = true ∧
      takenBy toLowerCase printed request.agentId request.address held =
        some .accepted := by
  unfold checkRequest at accepted
  split_ifs at accepted with claims named addressed zero
  · cases accepted
  · cases accepted
  · cases accepted
  · cases accepted
  · rw [Bool.not_eq_true, Bool.not_eq_eq_eq_not, Bool.not_false] at named
    rw [Bool.not_eq_true, Bool.not_eq_eq_eq_not, Bool.not_false] at addressed
    exact ⟨named, addressed, accepted⟩

theorem free_of_accepted
    {address : Text}
    (accepted :
      takenBy toLowerCase printed agentId address held = some .accepted) :
    ∀ entry ∈ held, member "id" entry ≠ some (.scalar (.string agentId)) ∧
        toLowerCase (addressText printed entry) ≠ toLowerCase address := by
  induction held with
  | nil => exact fun _ listed => nomatch listed
  | cons entry entries ih =>
      rw [List.forall_mem_cons]
      unfold takenBy at accepted
      split at accepted
      next empty => cases empty
      next same => cases accepted
      next same =>
        cases same
        split at accepted
        next named =>
          split_ifs at accepted with taken addressed
          · cases accepted
          · cases accepted
          · refine ⟨⟨?_, addressed⟩, ih accepted⟩
            rw [named]
            intro equal
            cases equal
            exact taken rfl
        next other =>
          split_ifs at accepted with addressed
          · cases accepted
          · exact ⟨⟨fun named => other agentId named, addressed⟩, ih accepted⟩

theorem serve_cases
    {desk : Desk} (block : reader.BlockList desk.file) (request : Request) :
    serve reader toLowerCase printed desk request = desk ∨ ∃ held,
        readRegistrations reader desk.file = some held ∧
          checkRequest toLowerCase printed request held desk.claimed =
            some .accepted ∧
          serve reader toLowerCase printed desk request =
            { file := desk.file ++ entryLines request
              claimed := request.userId :: desk.claimed
              granted := desk.granted ++ [request] } := by
  unfold serve
  cases lists : readRegistrations reader desk.file with
  | none => exact .inl rfl
  | some held =>
      by_cases accepted :
          checkRequest toLowerCase printed request held desk.claimed =
            some .accepted
      · right
        refine ⟨held, rfl, accepted, ?_⟩
        have passed := checked_of_accepted accepted
        have entry : registrationEntry request = some (entryLines request) := by
          unfold registrationEntry
          rw [passed.1, passed.2.1]
          rfl
        have appended :
            appendRegistration reader desk.file (entryLines request) =
              (desk.file ++ entryLines request, true) := by
          unfold appendRegistration
          rw [(readRegistrations_append block lists passed.1 passed.2.1).1]
        simp only [accepted, entry, appended, if_true]
      · left
        dsimp only
        split
        · contradiction
        · rfl

theorem parseRegistrations_append
    {file : Text} {registrations : List Registration}
    (block : reader.BlockList file)
    (lists : readRegistrations reader file = some held)
    (id : AGENT_ID_RE request.agentId = true)
    (address : ADDRESS_RE request.address = true)
    (reads : parseRegistrations reader path file = .ok registrations) :
    parseRegistrations reader path (file ++ entryLines request) =
      if StandsForItself request.agentId then
        .ok (registrations ++ [registered request])
      else
        let label := s!"{path} [{0 + held.length}]"
        .error s!"{label}.id must be a non-empty string" := by
  have appended := readRegistrations_append block lists id address
  rw [parseRegistrations_of_items lists] at reads
  rw [parseRegistrations_of_items appended.1, parseEntries_append, reads,
    parseEntry_entryOf id address]
  split <;> rfl

/-! ## Requests one after another -/

variable (reader path toLowerCase printed earlier)

/-- The coordinator reads the earlier registrations and one for each request
granted, and none of these can be made again. -/
structure Readable (desk : Desk) : Prop where
  read : parseRegistrations reader path desk.file =
      .ok (earlier ++ desk.granted.map registered)
  refused : ∀ request ∈ desk.granted, ∀ (later : Request) (held : List Doc),
      readRegistrations reader desk.file = some held →
        later.agentId = request.agentId ∨
            toLowerCase later.address = toLowerCase request.address →
          checkRequest toLowerCase printed later held desk.claimed ≠
            some .accepted

/-- What is kept while every id stands for itself. -/
structure Kept (desk : Desk) : Prop where
  read : parseRegistrations reader path desk.file =
      .ok (earlier ++ desk.granted.map registered)
  block : reader.BlockList desk.file
  plain : ∀ request ∈ desk.granted, StandsForItself request.agentId
  filed : ∀ request ∈ desk.granted, ∀ held,
      readRegistrations reader desk.file = some held → entryOf request ∈ held

def opened (file : Text) (claimed : List Text) : Desk := ⟨file, claimed, []⟩

def after (desk : Desk) (requests : List Request) : Desk :=
  requests.foldl (serve reader toLowerCase printed) desk

variable {reader path toLowerCase printed earlier}

theorem Kept.readable
    (kept : Kept reader path earlier desk) :
    Readable reader path toLowerCase printed earlier desk where
  read := kept.read
  refused request granted later held lists same accepted := by
    have passed := checked_of_accepted accepted
    have free :=
      free_of_accepted passed.2.2 _ (kept.filed request granted held lists)
    have fields := member_entryOf request
    rcases same with id | address
    · apply free.1
      rw [fields.1, id, kept.plain request granted]
    · apply free.2
      have text : addressText printed (entryOf request) = request.address := by
        unfold addressText
        rw [fields.2.1]
      rw [text, address]

theorem granted_serve
    (block : reader.BlockList desk.file) (request : Request) :
    ∀ earlier ∈ desk.granted,
      earlier ∈ (serve reader toLowerCase printed desk request).granted := by
  intro earlier granted
  rcases @serve_cases reader toLowerCase printed desk block request with
    same | ⟨held, _, _, appended⟩
  · rw [same]
    exact granted
  · rw [appended]
    exact List.mem_append_left _ granted

theorem kept_serve
    (kept : Kept reader path earlier desk)
    (plain : ∀ other ∈ (serve reader toLowerCase printed desk request).granted,
        StandsForItself other.agentId) :
    Kept reader path earlier
      (serve reader toLowerCase printed desk request) := by
  rcases @serve_cases reader toLowerCase printed desk kept.block request with
    same | ⟨held, lists, accepted, appended⟩
  · rw [same]
    exact kept
  · have passed := checked_of_accepted accepted
    have files := readRegistrations_append kept.block lists passed.1 passed.2.1
    have itself : StandsForItself request.agentId := by
      apply plain
      rw [appended]
      exact List.mem_append_right _ List.mem_cons_self
    constructor
    · rw [appended]
      dsimp only
      rw [parseRegistrations_append kept.block lists passed.1 passed.2.1
        kept.read, if_pos itself, List.map_append, List.append_assoc]
      rfl
    · rw [appended]
      exact files.2
    · exact plain
    · rw [appended]
      intro other granted items listed
      dsimp only at listed granted
      rw [files.1, Option.some.injEq] at listed
      subst listed
      rcases List.mem_append.mp granted with before | last
      · exact List.mem_append_left _ (kept.filed other before held lists)
      · rw [List.mem_singleton.mp last]
        exact List.mem_append_right _ List.mem_cons_self

/-- A request which was granted and is read has an id which stands for
itself. -/
theorem plain_of_readable
    (kept : Kept reader path earlier desk)
    (readable : Readable reader path toLowerCase printed earlier
        (serve reader toLowerCase printed desk request)) :
    ∀ other ∈ (serve reader toLowerCase printed desk request).granted,
      StandsForItself other.agentId := by
  rcases @serve_cases reader toLowerCase printed desk kept.block request with
    same | ⟨held, lists, accepted, appended⟩
  · rw [same]
    exact kept.plain
  · have passed := checked_of_accepted accepted
    have reads := readable.read
    rw [appended] at reads ⊢
    dsimp only at reads ⊢
    rw [parseRegistrations_append kept.block lists passed.1 passed.2.1
      kept.read] at reads
    intro other granted
    rcases List.mem_append.mp granted with before | last
    · exact kept.plain other before
    · rw [List.mem_singleton.mp last]
      by_contra foreign
      rw [if_neg foreign] at reads
      cases reads

theorem block_serve
    (block : reader.BlockList desk.file) (request : Request) :
    reader.BlockList (serve reader toLowerCase printed desk request).file := by
  rcases @serve_cases reader toLowerCase printed desk block request with
    same | ⟨held, lists, accepted, appended⟩
  · rw [same]
    exact block
  · have passed := checked_of_accepted accepted
    rw [appended]
    exact (readRegistrations_append block lists passed.1 passed.2.1).2

theorem block_after
    (block : reader.BlockList desk.file) (requests : List Request) :
    reader.BlockList (after reader toLowerCase printed desk requests).file := by
  induction requests generalizing desk with
  | nil => exact block
  | cons request requests ih =>
      exact ih (block_serve block request)

theorem after_concat
    (desk : Desk) (requests : List Request) (request : Request) :
    after reader toLowerCase printed desk (requests ++ [request]) =
      serve reader toLowerCase printed
        (after reader toLowerCase printed desk requests) request :=
  List.foldl_concat ..

section Started

variable {file : Text} {claimed : List Text} (block : reader.BlockList file)
    (accepted : parseRegistrations reader path file = .ok earlier)

include block accepted

theorem kept_opened : Kept reader path earlier (opened file claimed) where
  read := by
    rw [opened, List.map_nil, List.append_nil]
    exact accepted
  block := block
  plain _ granted := nomatch granted
  filed _ granted := nomatch granted

theorem kept_after
    {requests : List Request}
    (plain : ∀ request ∈ (after reader toLowerCase printed (opened file claimed)
            requests).granted,
        StandsForItself request.agentId) :
    ∀ served, served <+: requests → Kept reader path earlier
        (after reader toLowerCase printed (opened file claimed) served) := by
  induction requests using List.reverseRecOn with
  | nil =>
      intro served part
      rw [List.prefix_nil.mp part]
      exact kept_opened block accepted
  | append_singleton requests request ih =>
      have whole : Kept reader path earlier
          (after reader toLowerCase printed (opened file claimed)
            requests) := by
        apply ih _ _ (List.prefix_refl _)
        intro other granted
        apply plain
        rw [after_concat]
        exact granted_serve (block_after block requests) request _ granted
      intro served part
      rcases List.prefix_concat_iff.mp part with all | within
      · rw [all, after_concat]
        apply kept_serve whole
        rw [← after_concat]
        exact plain
      · apply ih _ _ within
        intro other granted
        apply plain
        rw [after_concat]
        exact granted_serve (block_after block requests) request _ granted

theorem plain_after
    {requests : List Request}
    (readable : ∀ served, served <+: requests →
        Readable reader path toLowerCase printed earlier
          (after reader toLowerCase printed (opened file claimed) served)) :
    ∀ request ∈ (after reader toLowerCase printed (opened file claimed)
          requests).granted,
      StandsForItself request.agentId := by
  induction requests using List.reverseRecOn with
  | nil => exact fun _ granted => nomatch granted
  | append_singleton requests request ih =>
      have before := ih fun served part =>
          readable served (part.trans (List.prefix_append _ _))
      have kept :=
        kept_after block accepted before requests (List.prefix_refl _)
      have last := readable (requests ++ [request]) (List.prefix_refl _)
      rw [after_concat] at last ⊢
      exact plain_of_readable kept last

/-- Over any sequence of requests, the coordinator goes on reading the file
with one registration more for each request granted, and refuses none, if and
only if every id granted stands for itself as a plain scalar. -/
theorem readable_iff (requests : List Request) :
    (∀ served, served <+: requests →
        Readable reader path toLowerCase printed earlier
          (after reader toLowerCase printed (opened file claimed) served)) ↔
      ∀ request ∈ (after reader toLowerCase printed (opened file claimed)
            requests).granted,
        StandsForItself request.agentId := by
  constructor
  · exact plain_after block accepted
  · intro plain served part
    exact (kept_after block accepted plain served part).readable

end Started

end Runs

/-- A request on a day, for an address of one digit. -/
def requestFor (userId agentId : String) (digit : Char) : Request where
  userId := userId.toList
  agentId := agentId.toList
  address := '0' :: 'x' :: List.replicate 40 digit
  date := ⟨"2026-10-03".toList, by decide⟩

def bobAndCarol : List Request :=
  [requestFor "1" "bob" '1', requestFor "2" "carol" '2',
    requestFor "3" "bob" '3']

/-- Two requests are granted, and the third, for an id taken, is not. -/
theorem bobAndCarol_readable :
    ((after lineReader id (fun _ => []) (opened [] [])
        bobAndCarol).granted.map Request.agentId =
      ["bob".toList, "carol".toList]) ∧
    ∀ served, served <+: bobAndCarol →
      Readable lineReader "registrations.yaml" id (fun _ => []) []
        (after lineReader id (fun _ => []) (opened [] []) served) := by
  have granted :
      ((after lineReader id (fun _ => []) (opened [] [])
          bobAndCarol).granted.map Request.agentId =
        ["bob".toList, "carol".toList]) := by
    decide
  have reads : parseRegistrations lineReader "registrations.yaml" [] = .ok [] :=
    rfl
  have list : lineReader.BlockList [] := trivial
  refine ⟨granted, (readable_iff list reads bobAndCarol).mpr ?_⟩
  intro request listed
  have named : request.agentId ∈ ["bob".toList, "carol".toList] := by
    rw [← granted]
    exact List.mem_map_of_mem listed
  have plain :
      ∀ text ∈ ["bob".toList, "carol".toList], StandsForItself text := by
    decide
  exact plain _ named

/-- The id `true` is granted, and the file is no longer read. -/
theorem true_unreadable :
    ¬ ∀ (reader : Reader) (path : String) (toLowerCase : Text → Text)
        (printed : Option Doc → Text) (earlier : List Registration)
        (file : Text) (claimed : List Text) (requests : List Request),
      reader.BlockList file →
        parseRegistrations reader path file = .ok earlier →
          Readable reader path toLowerCase printed earlier
            (after reader toLowerCase printed (opened file claimed)
              requests) := by
  intro readable
  have held :=
    (readable lineReader "registrations.yaml" id (fun _ => []) [] [] []
      [requestFor "1" "true" '1'] trivial rfl).read
  have refused : (parseRegistrations lineReader "registrations.yaml"
      (after lineReader id (fun _ => []) (opened [] [])
        [requestFor "1" "true" '1']).file).isOk = false := by
    decide
  rw [held] at refused
  cases refused

end Eris.Faucet.Reading
