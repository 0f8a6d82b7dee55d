import Mathlib.Data.List.Forall2
import TaskSpace.Proofs.Entry.Laws

/-!
# What the arguments of an entry attribute ask for

Arguments are taken exactly if they are a list of what can be asked for, each at most once. Any other list is
rejected for its first argument with which something is wrong.
-/

namespace TaskSpace.Entry

/-- What an argument can ask for. -/
inductive Request where
  | flavor (value : Flavor)
  | workerThreads (count : Nat)
deriving DecidableEq

/-- The word of a request. -/
def Request.key : Request → String
  | flavor _ => "flavor"
  | workerThreads _ => "worker_threads"

/-- The tokens of a request: its word, an equals sign, and a literal that stands for what is asked for. -/
inductive Names (literal : String → Literal) : List Token → Request → Prop where
  | localOnly {joint : Bool} {text : String} (value : literal text = .text "local") :
    Names literal [.word "flavor", .punct '=' joint, .literal text] (.flavor .localOnly)
  | stealing {joint : Bool} {text : String} (value : literal text = .text "stealing") :
    Names literal [.word "flavor", .punct '=' joint, .literal text] (.flavor .stealing)
  | workerThreads {joint : Bool} {text suffix : String} {count : Nat} (value : Numeral text count suffix)
    (one_le : 1 ≤ count) (le_top : count ≤ Word.top) :
    Names literal [.word "worker_threads", .punct '=' joint, .literal text] (.workerThreads count)

/-- The arguments with one more request. -/
def EntryArguments.add (read : EntryArguments) : Request → EntryArguments
  | .flavor value => { read with flavor := some value }
  | .workerThreads count => { read with workerThreads := some count }

/-- Requests without a repeated word set these arguments. -/
structure Collects (requests : List Request) (read : EntryArguments) : Prop where
  once : (requests.map Request.key).Nodup
  flavor (value : Flavor) : read.flavor = some value ↔ .flavor value ∈ requests
  workerThreads (count : Nat) : read.workerThreads = some count ↔ .workerThreads count ∈ requests

/-- Tokens are a list of requests that sets these arguments. -/
def Requests (literal : String → Literal) (tokens : List Token) (read : EntryArguments) : Prop :=
  ∃ entries requests, CommaList entries tokens ∧ List.Forall₂ (Names literal) entries requests ∧
    Collects requests read

/-- The literal stands for what is asked for. -/
inductive Says : Literal → Request → Prop
  | localOnly : Says (.text "local") (.flavor .localOnly)
  | stealing : Says (.text "stealing") (.flavor .stealing)
  | workerThreads {digits : String} {count : Nat} (value : Text.word digits = .ok count) (one_le : 1 ≤ count) :
    Says (.int digits) (.workerThreads count)

/-- The argument is the word of a request, and a literal that stands for it. -/
def Argument.Asks (argument : Argument) (request : Request) : Prop :=
  ∃ literal, argument = ⟨some request.key, some literal⟩ ∧ Says literal request

/-- A literal that does not stand for what can be asked for with a word. -/
inductive Misstates : String → Literal → EntryError → Prop where
  | flavorNotText {value : Literal} (other : ∀ text, value ≠ .text text) :
    Misstates "flavor" value .flavorNotText
  | unknownFlavor {name : String} (other : name ≠ "local" ∧ name ≠ "stealing") :
    Misstates "flavor" (.text name) (.unknownFlavor name)
  | threadsNotInteger {value : Literal} (other : ∀ digits, value ≠ .int digits) :
    Misstates "worker_threads" value .threadsNotInteger
  | threadsNotWord {digits : String} {error : Text.DigitsError} (value : Text.word digits = .error error) :
    Misstates "worker_threads" (.int digits) (.threadsNotWord error)
  | noThreads {digits : String} (value : Text.word digits = .ok 0) :
    Misstates "worker_threads" (.int digits) .noThreads

/-- What is wrong with an argument after requests. -/
inductive Offends (requests : List Request) (argument : Argument) : EntryError → Prop where
  | unknownPath (path : argument.key? = none) : Offends requests argument .unknownPath
  | notLiteral {key : String} (path : argument.key? = some key) (value : argument.literal? = none) :
    Offends requests argument (.notLiteral key)
  | unknownArgument {key : String} {literal : Literal} (path : argument.key? = some key)
    (value : argument.literal? = some literal) (other : key ∉ Argument.keys) :
    Offends requests argument (.unknownArgument key)
  | setTwice {key : String} {literal : Literal} (path : argument.key? = some key)
    (value : argument.literal? = some literal) (again : key ∈ requests.map Request.key) :
    Offends requests argument (.setTwice key)
  | misstated {key : String} {literal : Literal} {error : EntryError} (path : argument.key? = some key)
    (value : argument.literal? = some literal) (first : key ∉ requests.map Request.key)
    (misstates : Misstates key literal error) : Offends requests argument error

/-- What the first argument is rejected for with which something is wrong, after requests. -/
inductive FirstOffence : List Request → List Argument → EntryError → Prop where
  | here {requests : List Request} {argument : Argument} {arguments : List Argument} {error : EntryError}
    (offends : Offends requests argument error) : FirstOffence requests (argument :: arguments) error
  | later {requests : List Request} {argument : Argument} {request : Request} {arguments : List Argument}
    {error : EntryError} (asks : argument.Asks request) (new : request.key ∉ requests.map Request.key)
    (offence : FirstOffence (requests ++ [request]) arguments error) :
    FirstOffence requests (argument :: arguments) error

/-! ## Requests -/

namespace Request

variable {requests others : List Request} {request : Request}

theorem nodup_snoc (h : (requests.map key).Nodup) (hnew : request.key ∉ requests.map key) :
    ((requests ++ [request]).map key).Nodup := by
  rw [List.map_append]
  exact (List.perm_append_singleton _ _).nodup_iff.2 (List.nodup_cons.2 ⟨hnew, h⟩)

theorem new_of_nodup (h : ((requests ++ request :: others).map key).Nodup) : request.key ∉ requests.map key := by
  rw [List.map_append, List.map_cons, List.nodup_append] at h
  exact fun hmem => h.2.2 _ hmem _ List.mem_cons_self rfl

end Request

namespace Collects

variable {requests : List Request} {request : Request} {read other : EntryArguments}

theorem empty : Collects [] .empty where
  once := List.nodup_nil
  flavor _ := by simp [EntryArguments.empty]
  workerThreads _ := by simp [EntryArguments.empty]

theorem unique (h : Collects requests read) (h' : Collects requests other) : read = other := by
  have hflavor : read.flavor = other.flavor :=
    Option.ext fun value => (h.flavor value).trans (h'.flavor value).symm
  have hthreads : read.workerThreads = other.workerThreads :=
    Option.ext fun count => (h.workerThreads count).trans (h'.workerThreads count).symm
  cases read
  cases other
  rw [EntryArguments.mk.injEq]
  exact ⟨hflavor, hthreads⟩

theorem perm {others : List Request} (h : Collects requests read) (hperm : requests.Perm others) :
    Collects others read where
  once := (hperm.map _).nodup_iff.1 h.once
  flavor value := (h.flavor value).trans hperm.mem_iff
  workerThreads count := (h.workerThreads count).trans hperm.mem_iff

theorem flavor_isSome (h : Collects requests read) :
    read.flavor.isSome = true ↔ "flavor" ∈ requests.map Request.key := by
  rw [Option.isSome_iff_exists, List.mem_map]
  constructor
  · rintro ⟨value, hvalue⟩
    exact ⟨_, (h.flavor value).1 hvalue, rfl⟩
  · rintro ⟨request, hmem, hkey⟩
    cases request with
    | flavor value => exact ⟨value, (h.flavor value).2 hmem⟩
    | workerThreads count => exact absurd hkey (by simp [Request.key])

theorem workerThreads_isSome (h : Collects requests read) :
    read.workerThreads.isSome = true ↔ "worker_threads" ∈ requests.map Request.key := by
  rw [Option.isSome_iff_exists, List.mem_map]
  constructor
  · rintro ⟨count, hcount⟩
    exact ⟨_, (h.workerThreads count).1 hcount, rfl⟩
  · rintro ⟨request, hmem, hkey⟩
    cases request with
    | flavor value => exact absurd hkey (by simp [Request.key])
    | workerThreads count => exact ⟨count, (h.workerThreads count).2 hmem⟩

theorem flavor_isNone (h : Collects requests read) (hnew : "flavor" ∉ requests.map Request.key) :
    read.flavor.isSome = false := Bool.eq_false_iff.2 fun hsome => hnew (h.flavor_isSome.1 hsome)

theorem workerThreads_isNone (h : Collects requests read) (hnew : "worker_threads" ∉ requests.map Request.key) :
    read.workerThreads.isSome = false := Bool.eq_false_iff.2 fun hsome => hnew (h.workerThreads_isSome.1 hsome)

theorem snoc (h : Collects requests read) (hnew : request.key ∉ requests.map Request.key) :
    Collects (requests ++ [request]) (read.add request) := by
  have hmem : ∀ r, r ∈ requests ++ [request] ↔ r ∈ requests ∨ r = request := by simp
  cases request with
  | flavor value =>
    have hnone : ∀ value, .flavor value ∉ requests := fun value hmem => hnew (List.mem_map.2 ⟨_, hmem, rfl⟩)
    refine ⟨Request.nodup_snoc h.once hnew, fun other => ?_, fun count => ?_⟩
    · simp [hmem, hnone, EntryArguments.add, eq_comm]
    · simp [hmem, EntryArguments.add, h.workerThreads]
  | workerThreads count =>
    have hnone : ∀ count, .workerThreads count ∉ requests := fun count hmem => hnew (List.mem_map.2 ⟨_, hmem, rfl⟩)
    refine ⟨Request.nodup_snoc h.once hnew, fun value => ?_, fun other => ?_⟩
    · simp [hmem, EntryArguments.add, h.flavor]
    · simp [hmem, hnone, EntryArguments.add, eq_comm]

end Collects

namespace Argument

variable {argument : Argument} {request : Request}

theorem key_mem_keys (request : Request) : request.key ∈ keys := by
  cases request with
  | flavor => exact List.mem_cons_self
  | workerThreads => exact List.mem_cons_of_mem _ List.mem_cons_self

theorem Asks.plain (h : argument.Asks request) : argument.Plain := by
  obtain ⟨literal, rfl, hsays⟩ := h
  refine ⟨_, _, rfl, key_mem_keys request, ?_⟩
  cases hsays with
  | localOnly | stealing => trivial
  | workerThreads hvalue => exact fun hminus => absurd (hvalue.symm.trans (word_of_minus hminus)) nofun

end Argument

theorem says_flavor_or_misstates (literal : Literal) :
    (∃ value, Says literal (.flavor value)) ∨ ∃ error, Misstates "flavor" literal error := by
  cases literal with
  | text name =>
    by_cases hlocal : name = "local"
    · subst hlocal
      exact .inl ⟨_, .localOnly⟩
    · by_cases hstealing : name = "stealing"
      · subst hstealing
        exact .inl ⟨_, .stealing⟩
      · exact .inr ⟨_, .unknownFlavor ⟨hlocal, hstealing⟩⟩
  | int | other => exact .inr ⟨_, .flavorNotText nofun⟩

theorem says_workerThreads_or_misstates (literal : Literal) :
    (∃ count, Says literal (.workerThreads count)) ∨ ∃ error, Misstates "worker_threads" literal error := by
  cases literal with
  | int digits =>
    cases hvalue : Text.word digits with
    | error error => exact .inr ⟨_, .threadsNotWord hvalue⟩
    | ok count =>
      cases count with
      | zero => exact .inr ⟨_, .noThreads hvalue⟩
      | succ count => exact .inl ⟨_, .workerThreads hvalue (Nat.succ_pos count)⟩
  | text | other => exact .inr ⟨_, .threadsNotInteger nofun⟩

theorem asks_or_offends (requests : List Request) (argument : Argument) :
    (∃ request, argument.Asks request ∧ request.key ∉ requests.map Request.key) ∨
      ∃ error, Offends requests argument error := by
  obtain ⟨path, value⟩ := argument
  cases path with
  | none => exact .inr ⟨_, .unknownPath rfl⟩
  | some key =>
    cases value with
    | none => exact .inr ⟨_, .notLiteral rfl rfl⟩
    | some literal =>
      by_cases hagain : key ∈ requests.map Request.key
      · exact .inr ⟨_, .setTwice rfl rfl hagain⟩
      · by_cases hflavor : key = "flavor"
        · subst hflavor
          rcases says_flavor_or_misstates literal with ⟨value, hsays⟩ | ⟨error, hmisstates⟩
          · exact .inl ⟨.flavor value, ⟨_, rfl, hsays⟩, hagain⟩
          · exact .inr ⟨_, .misstated rfl rfl hagain hmisstates⟩
        · by_cases hthreads : key = "worker_threads"
          · subst hthreads
            rcases says_workerThreads_or_misstates literal with ⟨count, hsays⟩ | ⟨error, hmisstates⟩
            · exact .inl ⟨.workerThreads count, ⟨_, rfl, hsays⟩, hagain⟩
            · exact .inr ⟨_, .misstated rfl rfl hagain hmisstates⟩
          · exact .inr ⟨_, .unknownArgument rfl rfl (by simp [Argument.keys, hflavor, hthreads])⟩

/-! ## Setting arguments -/

namespace Misstates

variable {key : String} {literal : Literal} {error : EntryError}

theorem known (h : Misstates key literal error) : key = "flavor" ∨ key = "worker_threads" := by
  cases h with
  | flavorNotText | unknownFlavor => exact .inl rfl
  | threadsNotInteger | threadsNotWord | noThreads => exact .inr rfl

theorem flavorOfLiteral (h : Misstates key literal error) (hkey : key = "flavor") :
    EntryArguments.flavorOfLiteral literal = .error error := by
  cases h with
  | flavorNotText hother =>
    cases literal with
    | text text => exact absurd rfl (hother text)
    | int | other => rfl
  | unknownFlavor hother => simp [EntryArguments.flavorOfLiteral, hother.1, hother.2]
  | threadsNotInteger | threadsNotWord | noThreads => exact absurd hkey (by decide)

theorem threadsOfLiteral (h : Misstates key literal error) (hkey : key = "worker_threads") :
    EntryArguments.threadsOfLiteral literal = .error error := by
  cases h with
  | flavorNotText | unknownFlavor => exact absurd hkey (by decide)
  | threadsNotInteger hother =>
    cases literal with
    | int digits => exact absurd rfl (hother digits)
    | text | other => rfl
  | threadsNotWord hvalue | noThreads hvalue =>
    rw [EntryArguments.threadsOfLiteral, hvalue]
    rfl

end Misstates

namespace EntryArguments

variable {requests : List Request} {argument : Argument} {request : Request} {read read' : EntryArguments}
  {error : EntryError}

theorem threadsOfLiteral_of_word {digits : String} {count : Nat} (hvalue : Text.word digits = .ok count)
    (hone : 1 ≤ count) : threadsOfLiteral (.int digits) = .ok count := by
  obtain ⟨more, rfl⟩ := Nat.exists_eq_add_of_le' hone
  rw [threadsOfLiteral, hvalue]
  rfl

theorem set_of_asks (h : Collects requests read) (hasks : argument.Asks request)
    (hnew : request.key ∉ requests.map Request.key) : read.set argument = .ok (read.add request) := by
  obtain ⟨literal, rfl, hsays⟩ := hasks
  cases request with
  | flavor value =>
    have hnone : read.flavor.isSome = false := h.flavor_isNone hnew
    cases hsays <;> simp [set, Request.key, hnone, flavorOfLiteral, EntryArguments.add]
  | workerThreads count =>
    have hnone : read.workerThreads.isSome = false := h.workerThreads_isNone hnew
    obtain _ | _ | ⟨hvalue, hone⟩ := hsays
    simp [set, Request.key, hnone, threadsOfLiteral_of_word hvalue hone, EntryArguments.add]

theorem set_of_offends (h : Collects requests read) (hoffends : Offends requests argument error) :
    read.set argument = .error error := by
  cases hoffends with
  | unknownPath hpath => simp [set, hpath]
  | notLiteral hpath hvalue => simp [set, hpath, hvalue]
  | unknownArgument hpath hvalue hother =>
    simp only [Argument.keys, List.mem_cons, List.not_mem_nil, or_false, not_or] at hother
    simp [set, hpath, hvalue, hother.1, hother.2]
  | setTwice hpath hvalue hagain =>
    obtain ⟨request, hmem, rfl⟩ := List.mem_map.1 hagain
    cases request with
    | flavor value =>
      have hsome : read.flavor.isSome = true := h.flavor_isSome.2 hagain
      simp [set, hpath, hvalue, Request.key, hsome]
    | workerThreads count =>
      have hsome : read.workerThreads.isSome = true := h.workerThreads_isSome.2 hagain
      simp [set, hpath, hvalue, Request.key, hsome]
  | misstated hpath hvalue hfirst hmisstates =>
    rcases hmisstates.known with rfl | rfl
    · simp [set, hpath, hvalue, h.flavor_isNone hfirst, hmisstates.flavorOfLiteral rfl]
    · simp [set, hpath, hvalue, h.workerThreads_isNone hfirst, hmisstates.threadsOfLiteral rfl]

/-! ## Lists of arguments -/

theorem foldlM_set_of_asks {arguments : List Argument} {others : List Request} (h : Collects requests read)
    (hall : List.Forall₂ Argument.Asks arguments others) (honce : ((requests ++ others).map Request.key).Nodup) :
    ∃ read', arguments.foldlM set read = .ok read' ∧ Collects (requests ++ others) read' := by
  induction hall generalizing requests read with
  | nil => exact ⟨read, rfl, by rwa [List.append_nil]⟩
  | cons hasks hall ih =>
    have hnew := Request.new_of_nodup honce
    rw [List.append_cons] at honce ⊢
    obtain ⟨read', hread, hcollects⟩ := ih (h.snoc hnew) honce
    refine ⟨read', ?_, hcollects⟩
    rw [List.foldlM_cons, set_of_asks h hasks hnew]
    exact hread

theorem foldlM_set_of_offence {arguments : List Argument} (h : Collects requests read)
    (hoffence : FirstOffence requests arguments error) : arguments.foldlM set read = .error error := by
  induction hoffence generalizing read with
  | here hoffends =>
    rw [List.foldlM_cons, set_of_offends h hoffends]
    rfl
  | later hasks hnew _ ih =>
    rw [List.foldlM_cons, set_of_asks h hasks hnew]
    exact ih (h.snoc hnew)

end EntryArguments

theorem ask_or_offend (requests : List Request) (arguments : List Argument)
    (honce : (requests.map Request.key).Nodup) :
    (∃ others, List.Forall₂ Argument.Asks arguments others ∧ ((requests ++ others).map Request.key).Nodup) ∨
      ∃ error, FirstOffence requests arguments error := by
  induction arguments generalizing requests with
  | nil => exact .inl ⟨[], .nil, by rwa [List.append_nil]⟩
  | cons argument arguments ih =>
    rcases asks_or_offends requests argument with ⟨request, hasks, hnew⟩ | ⟨error, hoffends⟩
    · rcases ih _ (Request.nodup_snoc honce hnew) with ⟨others, hall, hothers⟩ | ⟨error, hoffence⟩
      · exact .inl ⟨request :: others, .cons hasks hall, by rwa [List.append_cons]⟩
      · exact .inr ⟨error, .later hasks hnew hoffence⟩
    · exact .inr ⟨error, .here hoffends⟩

namespace EntryArguments

variable {list : List Argument} {read : EntryArguments} {error : EntryError}

/-- A list is taken exactly if its arguments ask for different things. -/
theorem ofList_eq_ok : ofList list = .ok read ↔
    ∃ requests, List.Forall₂ Argument.Asks list requests ∧ Collects requests read := by
  constructor
  · intro h
    rcases ask_or_offend [] list List.nodup_nil with ⟨requests, hall, honce⟩ | ⟨error, hoffence⟩
    · obtain ⟨read', hread, hcollects⟩ := foldlM_set_of_asks .empty hall honce
      cases h.symm.trans hread
      exact ⟨requests, hall, hcollects⟩
    · cases h.symm.trans (foldlM_set_of_offence .empty hoffence)
  · rintro ⟨requests, hall, hcollects⟩
    obtain ⟨read', hread, hcollects'⟩ := foldlM_set_of_asks .empty hall hcollects.once
    exact hread.trans (congrArg _ (hcollects'.unique hcollects))

/-- Any other list is rejected for the first argument with which something is wrong. -/
theorem ofList_eq_error : ofList list = .error error ↔ FirstOffence [] list error := by
  constructor
  · intro h
    rcases ask_or_offend [] list List.nodup_nil with ⟨requests, hall, honce⟩ | ⟨other, hoffence⟩
    · obtain ⟨read, hread, -⟩ := foldlM_set_of_asks .empty hall honce
      cases h.symm.trans hread
    · cases h.symm.trans (foldlM_set_of_offence .empty hoffence)
      exact hoffence
  · exact foldlM_set_of_offence .empty

end EntryArguments

/-! ## Requests as they are written -/

namespace Parser.Reads

variable {E : Type} {parser : Parser E} {literal : String → Literal} {tokens : List Token} {read : EntryArguments}

theorem plain_of_asks {list : List Argument} {requests : List Request}
    (hall : List.Forall₂ Argument.Asks list requests) : ∀ argument ∈ list, argument.Plain :=
  ((List.forall₂_and_left list requests).1 (hall.imp fun _ _ hasks => ⟨hasks.plain, hasks⟩)).1

theorem word_of_numeral (h : parser.Reads literal) {text suffix : String} {count : Nat}
    (hvalue : Numeral text count suffix) (htop : count ≤ Word.top) :
    ∃ digits, literal text = .int digits ∧ Text.word digits = .ok count := by
  have hlt : count < Word.bound := Nat.lt_of_le_of_lt htop (by decide)
  exact ⟨toString count, (h.int text (head?_toString_ne_minus count)).2 ⟨count, suffix, hvalue, rfl⟩,
    by rw [word_toString, if_pos hlt]⟩

theorem numeral_of_word (h : parser.Reads literal) {text digits : String} {count : Nat}
    (htext : literal text = .int digits) (hword : Text.word digits = .ok count) :
    (∃ suffix, Numeral text count suffix) ∧ count ≤ Word.top := by
  have hunsigned : digits.toList.head? ≠ some '-' :=
    fun hminus => absurd (hword.symm.trans (word_of_minus hminus)) nofun
  obtain ⟨value, suffix, hvalue, rfl⟩ := (h.int text hunsigned).1 htext
  rw [word_toString] at hword
  split at hword
  · rename_i hlt
    cases hword
    exact ⟨⟨suffix, hvalue⟩, Nat.le_sub_one_of_lt hlt⟩
  · cases hword

/-- The tokens of a request are those that are read as an argument that asks for it. -/
theorem names_iff (h : parser.Reads literal) {entry : List Token} {request : Request} :
    Names literal entry request ↔ ∃ argument, Argument.Writes literal entry argument ∧ argument.Asks request := by
  constructor
  · rintro (⟨htext⟩ | ⟨htext⟩ | ⟨hvalue, hone, htop⟩)
    · exact ⟨_, .mk "flavor" _ _, _, rfl, htext ▸ .localOnly⟩
    · exact ⟨_, .mk "flavor" _ _, _, rfl, htext ▸ .stealing⟩
    · obtain ⟨digits, htext, hword⟩ := h.word_of_numeral hvalue htop
      exact ⟨_, .mk "worker_threads" _ _, _, rfl, htext ▸ .workerThreads hword hone⟩
  · rintro ⟨_, ⟨key, joint, text⟩, value, hargument, hsays⟩
    obtain ⟨rfl, htext⟩ : key = request.key ∧ literal text = value := by simpa using hargument
    cases hsays with
    | localOnly => exact .localOnly htext
    | stealing => exact .stealing htext
    | workerThreads hword hone =>
      obtain ⟨⟨suffix, hvalue⟩, htop⟩ := h.numeral_of_word htext hword
      exact .workerThreads hvalue hone htop

theorem forall₂_names_iff (h : parser.Reads literal) {entries : List (List Token)} {requests : List Request} :
    List.Forall₂ (Names literal) entries requests ↔
      ∃ list, List.Forall₂ (Argument.Writes literal) entries list ∧ List.Forall₂ Argument.Asks list requests := by
  constructor
  · intro hall
    induction hall with
    | nil => exact ⟨[], .nil, .nil⟩
    | cons hnames _ ih =>
      obtain ⟨argument, hwrites, hasks⟩ := h.names_iff.1 hnames
      obtain ⟨list, hentries, hrequests⟩ := ih
      exact ⟨argument :: list, .cons hwrites hentries, .cons hasks hrequests⟩
  · rintro ⟨list, hentries, hrequests⟩
    induction hentries generalizing requests with
    | nil =>
      cases hrequests
      exact .nil
    | cons hwrites _ ih =>
      obtain _ | ⟨hasks, hrequests⟩ := hrequests
      exact .cons (h.names_iff.2 ⟨_, hwrites, hasks⟩) (ih hrequests)

/-- Tokens are read as arguments that are taken exactly if they are a list of requests. -/
theorem requests_iff (h : parser.Reads literal) : Requests literal tokens read ↔
    ∃ list, parser.arguments tokens = .ok list ∧ EntryArguments.ofList list = .ok read := by
  constructor
  · rintro ⟨entries, requests, hlist, hnames, hcollects⟩
    obtain ⟨list, hwrites, hall⟩ := h.forall₂_names_iff.1 hnames
    exact ⟨list, (h.arguments tokens (plain_of_asks hall)).2 ⟨entries, hlist, hwrites⟩,
      EntryArguments.ofList_eq_ok.2 ⟨requests, hall, hcollects⟩⟩
  · rintro ⟨list, hlist, hread⟩
    obtain ⟨requests, hall, hcollects⟩ := EntryArguments.ofList_eq_ok.1 hread
    obtain ⟨entries, hentries, hwrites⟩ := (h.arguments tokens (plain_of_asks hall)).1 hlist
    exact ⟨entries, requests, hentries, h.forall₂_names_iff.2 ⟨list, hwrites, hall⟩, hcollects⟩

/-! ## The order of arguments -/

variable {first second swapped : List Token} {request other : Request}

theorem list_of_names (h : parser.Reads literal) (hfirst : Names literal first request)
    (hsecond : Names literal second other) (hlist : CommaList [first, second] tokens) :
    ∃ list, parser.arguments tokens = .ok list ∧ List.Forall₂ Argument.Asks list [request, other] := by
  obtain ⟨list, hwrites, hall⟩ := h.forall₂_names_iff.1 (.cons hfirst (.cons hsecond .nil))
  exact ⟨list, (h.arguments tokens (plain_of_asks hall)).2 ⟨_, hlist, hwrites⟩, hall⟩

theorem ofList_twice {list : List Argument} (hall : List.Forall₂ Argument.Asks list [request, other])
    (hkey : request.key = other.key) : EntryArguments.ofList list = .error (.setTwice request.key) := by
  obtain _ | ⟨hasks, hrest⟩ := hall
  obtain _ | ⟨⟨value, rfl, hsays⟩, hnil⟩ := hrest
  have htwice : Offends [request] ⟨some other.key, some value⟩ (.setTwice request.key) := by
    rw [hkey]
    exact .setTwice rfl rfl (by rw [← hkey]; exact List.mem_singleton_self _)
  exact EntryArguments.ofList_eq_error.2 (.later hasks List.not_mem_nil (.here htwice))

theorem exists_collects (hkey : request.key ≠ other.key) : ∃ read, Collects [request, other] read :=
  ⟨_, (Collects.empty.snoc List.not_mem_nil).snoc fun hmem => hkey (List.mem_singleton.1 hmem).symm⟩

/-- Two arguments say the same in either order. -/
theorem ofList_swap (h : parser.Reads literal) (hfirst : Names literal first request)
    (hsecond : Names literal second other) (hlist : CommaList [first, second] tokens)
    (hswapped : CommaList [second, first] swapped) :
    ∃ list list', parser.arguments tokens = .ok list ∧ parser.arguments swapped = .ok list' ∧
      EntryArguments.ofList list = EntryArguments.ofList list' := by
  obtain ⟨list, hread, hall⟩ := h.list_of_names hfirst hsecond hlist
  obtain ⟨list', hread', hall'⟩ := h.list_of_names hsecond hfirst hswapped
  refine ⟨list, list', hread, hread', ?_⟩
  by_cases hkey : request.key = other.key
  · rw [ofList_twice hall hkey, ofList_twice hall' hkey.symm, hkey]
  -- With different words both orders set the same, and with one word the second argument is refused.
  · obtain ⟨read, hcollects⟩ := exists_collects hkey
    have hswap : Collects [other, request] read := hcollects.perm (.swap other request [])
    rw [EntryArguments.ofList_eq_ok.2 ⟨_, hall, hcollects⟩, EntryArguments.ofList_eq_ok.2 ⟨_, hall', hswap⟩]

end Parser.Reads

end TaskSpace.Entry
