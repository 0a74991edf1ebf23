import CoWq.Lib.Numerals
import Mathlib.Data.List.Count

/-!
# What `resolve_core` selects

`resolve_core` copies the usable addresses of a `getaddrinfo` list to `endpoints` and then goes over
the unfiltered list to select one of them.

* `resolveCore`: the code.
* `Contract`: what `resolve_result` promises about `endpoints`, `storage` and `selected_index`.
* `Aligned`: the lists for which the index among the unfiltered entries is the right one.
* `contract_iff`: the promise is kept for those lists, and for no other ones.
-/

namespace CoWq.ResolveCore

abbrev Bytes := List UInt8

/-! ## The code -/

def afUnspec : Int := 0
def afInet : Int := 2
def afInet6 : Int := 10
def eaiNoname : Int := -2
def eaiFail : Int := -4

/-- `sizeof(sockaddr_storage)` and `sizeof(sockaddr_in6)` -/
def storageSize : Nat := 128
def sockaddrIn6Size : Nat := 28

/-- The fields of an `addrinfo` that are read; there is no address at a null pointer. -/
structure AddrInfo where
  family : Int
  addr : Option Bytes
  addrlen : Nat
  whole : ∀ bytes, addr = some bytes → bytes.length = addrlen

structure ResolveOptions where
  family : Int := afUnspec
  allowDualStack : Bool := false
  deriving DecidableEq, Repr

structure EndpointEntry where
  addr : Bytes := List.replicate storageSize 0
  len : Nat := 0
  deriving DecidableEq, Repr

/-- `resolve_result`; an absent `selectedIndex` is `SIZE_MAX`. -/
structure ResolveResult where
  success : Bool := false
  storage : Bytes := List.replicate storageSize 0
  length : Nat := 0
  errorCode : Int := 0
  errorMessage : String := ""
  endpoints : List EndpointEntry := []
  selectedIndex : Option Nat := none
  deriving DecidableEq, Repr

/-- `std::memcpy` to the start of a `sockaddr_storage` that is large enough -/
def overwrite (storage bytes : Bytes) : Bytes := bytes ++ storage.drop bytes.length

/-- `strip_brackets` -/
def stripBrackets (input : Bytes) : Bytes :=
  if 2 ≤ input.length ∧ input.head? = some 91 ∧ input.getLast? = some 93 then
    (input.drop 1).take (input.length - 2)
  else input

/-- `populate_ipv4_mapped`: port and address of the `sockaddr_in` in a `sockaddr_in6` -/
def populateIpv4Mapped (v4 storage : Bytes) : Bytes :=
  overwrite storage ([10, 0] ++ (v4.drop 2).take 2 ++ List.replicate 14 0 ++ [0xFF, 0xFF] ++
    (v4.drop 4).take 4 ++ List.replicate 4 0)

/-- The test of the loop that collects the candidates. -/
def AddrInfo.Usable (ai : AddrInfo) : Prop :=
  ai.addr.isSome ∧ 0 < ai.addrlen ∧ ai.addrlen ≤ storageSize

instance (ai : AddrInfo) : Decidable ai.Usable := inferInstanceAs (Decidable (_ ∧ _))

/-- The `endpoint_entry` of a candidate. -/
def AddrInfo.entry (ai : AddrInfo) : EndpointEntry where
  addr := overwrite (List.replicate storageSize 0) (ai.addr.getD [])
  len := ai.addrlen

/-- The loop that collects the candidates. -/
def collect (list : List AddrInfo) : List EndpointEntry :=
  (list.filter (·.Usable)).map AddrInfo.entry

/-- The tests of the loop that selects an entry. -/
def ResolveOptions.Admits (options : ResolveOptions) (ai : AddrInfo) : Prop :=
  options.family = afUnspec ∨ ai.family = options.family ∨
    options.family = afInet6 ∧ options.allowDualStack = true ∧ ai.family = afInet

instance (options : ResolveOptions) (ai : AddrInfo) : Decidable (options.Admits ai) :=
  inferInstanceAs (Decidable (_ ∨ _))

/-- The loop that selects an entry, with `index` counted over all entries. -/
def select (options : ResolveOptions) (count : Nat) : Nat → List AddrInfo →
    Option (AddrInfo × Option Nat)
  | _, [] => none
  | index, ai :: rest =>
      if options.Admits ai then some (ai, if index < count then some index else none)
      else select options count (index + 1) rest

/-- The selected entry is copied as it is. -/
def ResolveOptions.Copies (options : ResolveOptions) (ai : AddrInfo) : Prop :=
  ai.family = options.family ∨ options.family = afUnspec

instance (options : ResolveOptions) (ai : AddrInfo) : Decidable (options.Copies ai) :=
  inferInstanceAs (Decidable (_ ∨ _))

/-- What is stored of the selected entry.  There is no result when an address is read that is not
there. -/
def store (options : ResolveOptions) (selected : AddrInfo) (result : ResolveResult) :
    Option ResolveResult :=
  if options.Copies selected then
    if storageSize < selected.addrlen then
      some { result with errorCode := eaiFail, errorMessage := "address too large" }
    else if selected.addr = none ∧ 0 < selected.addrlen then none
    else
      some { result with
        storage := overwrite result.storage (selected.addr.getD [])
        length := selected.addrlen
        success := true }
  else if options.family = afInet6 ∧ options.allowDualStack = true ∧ selected.family = afInet then
    match selected.addr with
    | none => none
    | some v4 =>
        -- `sin_port` and `sin_addr` are the bytes 2 to 7
        if v4.length < 8 then none
        else
          some { result with
            storage := populateIpv4Mapped v4 result.storage
            length := sockaddrIn6Size
            success := true }
  else
    some { result with errorCode := eaiNoname, errorMessage := "unsupported address family" }

/-- `getaddrinfo` for a node, a service and `hints.ai_family`, and `gai_strerror`. -/
structure Resolver where
  getaddrinfo : Bytes → Bytes → Int → Int × List AddrInfo
  gaiStrerror : Int → String

/-- `hints.ai_family` -/
def ResolveOptions.hint (options : ResolveOptions) : Int :=
  if options.family = afInet6 ∧ options.allowDualStack = true then afUnspec else options.family

/-- `resolve_core` on a new `resolve_result`, as both of its callers have one -/
def resolveCore (resolver : Resolver) (host : Bytes) (port : UInt16) (options : ResolveOptions) :
    Option ResolveResult :=
  let node := stripBrackets host
  if node = [] then
    some { errorCode := eaiNoname, errorMessage := "empty host" }
  else
    let (rc, list) := resolver.getaddrinfo node (numeral 10 port.toNat) options.hint
    if rc ≠ 0 ∨ list = [] then
      some { errorCode := rc
             errorMessage := if rc = 0 then "no results" else resolver.gaiStrerror rc }
    else
      let endpoints := collect list
      match select options endpoints.length 0 list with
      | none =>
          some { errorCode := eaiNoname, errorMessage := "no matching family", endpoints }
      | some (selected, selectedIndex) =>
          store options selected { endpoints, selectedIndex }

/-! ## The promise -/

/-- The list that `getaddrinfo` returns; an empty one where it is not called or fails. -/
def answered (resolver : Resolver) (host : Bytes) (port : UInt16) (options : ResolveOptions) :
    List AddrInfo :=
  if stripBrackets host = [] then []
  else
    let (rc, list) :=
      resolver.getaddrinfo (stripBrackets host) (numeral 10 port.toNat) options.hint
    if rc = 0 then list else []

/-- The storage and the length that an address gives in the way in which `selected` is taken: the
same bytes, or the mapped form. -/
def built (options : ResolveOptions) (selected : AddrInfo) (e : EndpointEntry) : Bytes × Nat :=
  if options.Copies selected then (e.addr, e.len)
  else (populateIpv4Mapped e.addr (List.replicate storageSize 0), sockaddrIn6Size)

/-- The entry holds a `sockaddr_in`. -/
def EndpointEntry.IsIpv4 (e : EndpointEntry) : Prop := e.addr.take 2 = [2, 0] ∧ 8 ≤ e.len

instance (e : EndpointEntry) : Decidable e.IsIpv4 := inferInstanceAs (Decidable (_ ∧ _))

/-- The entry is the address that `selected` has: the same bytes, or, where it is mapped, an IPv4
address with the same mapped form. -/
def Designates (options : ResolveOptions) (selected : AddrInfo) (e : EndpointEntry) : Prop :=
  e = selected.entry ∨ ¬ options.Copies selected ∧ e.IsIpv4 ∧
    built options selected e = built options selected selected.entry

instance (options : ResolveOptions) (selected : AddrInfo) (e : EndpointEntry) :
    Decidable (Designates options selected e) :=
  inferInstanceAs (Decidable (_ ∨ _))

/-- What `resolve_result` promises of a list. -/
structure Contract (options : ResolveOptions) (list : List AddrInfo) (r : ResolveResult) :
    Prop where
  /-- the usable entries, in their order -/
  endpoints : r.endpoints = collect list
  /-- storage and length are built of the first entry that the policy admits, and the index is that
  of this address -/
  selected : r.success = true → ∃ selected, list.find? (options.Admits ·) = some selected ∧
    built options selected selected.entry = (r.storage, r.length) ∧
    (∀ i, r.selectedIndex = some i → ∃ e, r.endpoints[i]? = some e ∧
      Designates options selected e) ∧
    (r.selectedIndex = none → ∀ e ∈ r.endpoints, ¬ Designates options selected e)
  failed : r.success = false → r.length = 0

/-! ## Lists for which the index is right -/

/-- The address of the selected entry can be read, or is not read because it is too large. -/
def Readable (options : ResolveOptions) (selected : AddrInfo) : Prop :=
  if options.Copies selected then selected.addr = none → selected.addrlen = 0 ∨
    storageSize < selected.addrlen
  else selected.addr ≠ none ∧ 8 ≤ selected.addrlen

/-- The selected entry is refused as too large. -/
def TooLarge (options : ResolveOptions) (selected : AddrInfo) : Prop :=
  options.Copies selected ∧ storageSize < selected.addrlen

/-- The usable entry that stands as many places behind the selected one as there are unusable
entries in front of it. -/
def shifted (before : List AddrInfo) (selected : AddrInfo) (after : List AddrInfo) :
    Option AddrInfo :=
  ((selected :: after).filter (·.Usable))[before.countP (¬ ·.Usable)]?

/-- The entry in the place of the selected one has its address.  Where there is no such entry, no
usable one has that address. -/
structure Aligned (options : ResolveOptions) (list : List AddrInfo) : Prop where
  readable : ∀ selected, list.find? (options.Admits ·) = some selected → Readable options selected
  place : ∀ before selected after, list = before ++ selected :: after →
    (∀ ai ∈ before, ¬ options.Admits ai) → options.Admits selected →
    ¬ TooLarge options selected →
    (∀ ai, shifted before selected after = some ai → Designates options selected ai.entry) ∧
    (shifted before selected after = none →
      ∀ ai ∈ list, ai.Usable → ¬ Designates options selected ai.entry)

/-! ## What the code comes to -/

variable {options : ResolveOptions}

theorem select_none {count : Nat} {list : List AddrInfo} (none : ∀ ai ∈ list, ¬ options.Admits ai)
    (index : Nat) : select options count index list = Option.none := by
  induction list generalizing index with
  | nil => rfl
  | cons ai rest ih =>
      rw [select, if_neg (none ai List.mem_cons_self)]
      exact ih (fun ai inside => none ai (List.mem_cons_of_mem _ inside)) _

theorem select_some {count : Nat} {before after : List AddrInfo} {selected : AddrInfo}
    (none : ∀ ai ∈ before, ¬ options.Admits ai) (admitted : options.Admits selected) (index : Nat) :
    select options count index (before ++ selected :: after) =
      some (selected, if index + before.length < count then some (index + before.length)
        else Option.none) := by
  induction before generalizing index with
  | nil => exact if_pos admitted
  | cons ai rest ih =>
      rw [List.cons_append, select, if_neg (none ai List.mem_cons_self),
        ih (fun ai inside => none ai (List.mem_cons_of_mem _ inside)), List.length_cons,
        Nat.add_right_comm, Nat.add_assoc]

/-- The first admitted entry, with those in front of it. -/
theorem find_split {list : List AddrInfo} {selected : AddrInfo} :
    list.find? (options.Admits ·) = some selected ↔ options.Admits selected ∧
      ∃ before after, list = before ++ selected :: after ∧ ∀ ai ∈ before, ¬ options.Admits ai := by
  rw [List.find?_eq_some_iff_append]
  simp

theorem split_unique {before before' after after' : List AddrInfo} {selected selected' : AddrInfo}
    (same : before ++ selected :: after = before' ++ selected' :: after')
    (none : ∀ ai ∈ before, ¬ options.Admits ai) (none' : ∀ ai ∈ before', ¬ options.Admits ai)
    (admitted : options.Admits selected) (admitted' : options.Admits selected') :
    before = before' ∧ selected = selected' ∧ after = after' := by
  induction before generalizing before' with
  | nil =>
      cases before' with
      | nil => exact ⟨rfl, List.cons.inj same⟩
      | cons ai before' =>
          have first := (List.cons.inj same).1
          exact (none' ai List.mem_cons_self (first ▸ admitted)).elim
  | cons ai before ih =>
      cases before' with
      | nil =>
          have first := (List.cons.inj same).1
          exact (none ai List.mem_cons_self (first ▸ admitted')).elim
      | cons ai' before' =>
          obtain ⟨first, rest⟩ := List.cons.inj same
          obtain ⟨same, others⟩ :=
            ih rest (fun ai inside => none ai (List.mem_cons_of_mem _ inside))
            fun ai inside => none' ai (List.mem_cons_of_mem _ inside)
          exact ⟨first ▸ same ▸ rfl, others⟩

/-- The bytes 2 to 7 are the same with NULs behind them. -/
theorem populateIpv4Mapped_padded {v4 rest storage : Bytes} (long : 8 ≤ v4.length) :
    populateIpv4Mapped (v4 ++ rest) storage = populateIpv4Mapped v4 storage := by
  unfold populateIpv4Mapped
  rw [List.drop_append_of_le_length (by omega), List.drop_append_of_le_length (by omega),
    List.take_append_of_le_length (by rw [List.length_drop]; omega),
    List.take_append_of_le_length (by rw [List.length_drop]; omega)]

theorem store_unreadable {selected : AddrInfo} {result : ResolveResult}
    (admitted : options.Admits selected) (unreadable : ¬ Readable options selected) :
    store options selected result = none := by
  unfold Readable at unreadable
  unfold store
  split at unreadable
  · next copies =>
      obtain ⟨absent, bytes⟩ := Classical.not_imp.mp unreadable
      rw [if_pos copies, if_neg (by omega), if_pos ⟨absent, by omega⟩]
  · next maps =>
      have dual : options.family = afInet6 ∧ options.allowDualStack = true ∧
          selected.family = afInet := by
        rcases admitted with unspec | same | dual
        · exact (maps (.inr unspec)).elim
        · exact (maps (.inl same)).elim
        · exact dual
      rw [if_neg maps, if_pos dual]
      cases present : selected.addr with
      | none => rfl
      | some v4 =>
          have short : v4.length < 8 := by
            rw [selected.whole v4 present]
            by_contra long
            exact unreadable ⟨by simp [present], by omega⟩
          exact if_pos short

theorem store_large {selected : AddrInfo} {result : ResolveResult}
    (large : TooLarge options selected) : store options selected result =
      some { result with errorCode := eaiFail, errorMessage := "address too large" } := by
  rw [store, if_pos large.1, if_pos large.2]

theorem store_readable {selected : AddrInfo} {endpoints : List EndpointEntry} {index : Option Nat}
    (admitted : options.Admits selected) (readable : Readable options selected)
    (fits : ¬ TooLarge options selected) :
    store options selected { endpoints, selectedIndex := index } = some
      { endpoints
        selectedIndex := index
        storage := (built options selected selected.entry).1
        length := (built options selected selected.entry).2
        success := true } := by
  unfold Readable at readable
  unfold store built
  split at readable
  · next copies =>
      have small : ¬ storageSize < selected.addrlen := fun large => fits ⟨copies, large⟩
      rw [if_pos copies, if_neg small, if_neg, if_pos copies]
      · rfl
      · rintro ⟨absent, bytes⟩
        rcases readable absent with empty | large
        · omega
        · exact small large
  · next maps =>
      have dual : options.family = afInet6 ∧ options.allowDualStack = true ∧
          selected.family = afInet := by
        rcases admitted with unspec | same | dual
        · exact (maps (.inr unspec)).elim
        · exact (maps (.inl same)).elim
        · exact dual
      obtain ⟨present, long⟩ := readable
      obtain ⟨v4, present⟩ := Option.ne_none_iff_exists'.mp present
      rw [← selected.whole v4 present] at long
      rw [if_neg maps, if_pos dual, if_neg maps, present]
      simp only [AddrInfo.entry, present, Option.getD_some, overwrite]
      rw [if_neg (by omega), populateIpv4Mapped_padded long]

/-- All of `resolve_core` behind the answer of `getaddrinfo`. -/
theorem resolveCore_cases (resolver : Resolver) (host : Bytes) (port : UInt16)
    (options : ResolveOptions) :
    (answered resolver host port options).find? (options.Admits ·) = none ∧
      (∃ errorCode errorMessage, resolveCore resolver host port options =
        some { errorCode, errorMessage, endpoints := collect (answered resolver host port options) }) ∨
    ∃ before selected after, answered resolver host port options = before ++ selected :: after ∧
      (∀ ai ∈ before, ¬ options.Admits ai) ∧ options.Admits selected ∧
      resolveCore resolver host port options = store options selected
        { endpoints := collect (answered resolver host port options)
          selectedIndex :=
            if before.length < (collect (answered resolver host port options)).length then
              some before.length else none } := by
  obtain ⟨getaddrinfo, gaiStrerror⟩ := resolver
  unfold answered resolveCore
  by_cases empty : stripBrackets host = []
  · simp only [if_pos empty]
    exact .inl ⟨rfl, _, _, rfl⟩
  · simp only [if_neg empty]
    generalize getaddrinfo (stripBrackets host) (numeral 10 port.toNat) options.hint = answer
    obtain ⟨rc, list⟩ := answer
    dsimp only
    by_cases failed : rc = 0
    · rw [if_pos failed]
      cases found : list.find? (options.Admits ·) with
      | none =>
          refine .inl ⟨rfl, ?_⟩
          have never : ∀ ai ∈ list, ¬ options.Admits ai := by
            simpa using List.find?_eq_none.mp found
          rw [select_none never]
          split
          · next absent =>
              rcases absent with nonzero | nothing
              · exact (nonzero failed).elim
              · cases nothing
                exact ⟨_, _, rfl⟩
          · exact ⟨_, _, rfl⟩
      | some selected =>
          obtain ⟨admitted, before, after, rfl, never⟩ := find_split.mp found
          refine .inr ⟨before, selected, after, rfl, never, admitted, ?_⟩
          rw [if_neg (by simp [failed]), select_some never admitted, Nat.zero_add]
    · rw [if_neg failed, if_pos (.inl failed)]
      exact .inl ⟨rfl, _, _, rfl⟩

/-- The usable entry in the place of the selected one. -/
theorem collect_place (before : List AddrInfo) (selected : AddrInfo) (after : List AddrInfo) :
    (collect (before ++ selected :: after))[before.length]? =
      (shifted before selected after).map AddrInfo.entry := by
  have split := List.length_eq_countP_add_countP (l := before) (p := (decide ·.Usable))
  rw [List.countP_eq_length_filter] at split
  have place : before.length - (before.filter (·.Usable)).length =
      before.countP (¬ ·.Usable) := by
    simp only [decide_eq_true_eq, decide_not] at split ⊢
    omega
  rw [collect, List.getElem?_map, List.filter_append, List.getElem?_append_right (by omega), place,
    shifted]

/-- The index that is counted over all entries is kept while it is one of the usable ones. -/
theorem place_absent {before after : List AddrInfo} {selected : AddrInfo} :
    shifted before selected after = none ↔
      ¬ before.length < (collect (before ++ selected :: after)).length := by
  rw [← Option.map_eq_none_iff (f := AddrInfo.entry), ← collect_place, List.getElem?_eq_none_iff,
    Nat.not_lt]

/-- On a list without an admitted entry nothing has to be aligned. -/
theorem aligned_of_never {list : List AddrInfo} (never : list.find? (options.Admits ·) = none) :
    Aligned options list := by
  refine ⟨fun selected found => ?_, ?_⟩
  · rw [never] at found
    cases found
  · rintro before selected after rfl none admitted -
    have found := find_split.mpr ⟨admitted, before, after, rfl, none⟩
    rw [never] at found
    cases found

theorem contract_of_aligned {resolver : Resolver} {host : Bytes} {port : UInt16}
    (aligned : Aligned options (answered resolver host port options)) :
    ∃ r, resolveCore resolver host port options = some r ∧
      Contract options (answered resolver host port options) r := by
  rcases resolveCore_cases resolver host port options with
    ⟨-, errorCode, errorMessage, fails⟩ | ⟨before, selected, after, same, none, admitted, taken⟩
  · exact ⟨_, fails, rfl, fun succeeds => absurd succeeds (by simp), fun _ => rfl⟩
  · rw [taken]
    rw [same] at aligned ⊢
    have found := find_split.mpr ⟨admitted, before, after, rfl, none⟩
    by_cases large : TooLarge options selected
    · rw [store_large large]
      exact ⟨_, rfl, rfl, fun succeeds => absurd succeeds (by simp), fun _ => rfl⟩
    · rw [store_readable admitted (aligned.readable selected found) large]
      obtain ⟨index, absent⟩ := aligned.place before selected after rfl none admitted large
      refine ⟨_, rfl, rfl, fun _ => ⟨selected, found, rfl, fun i atIndex => ?_,
        fun gone e inside => ?_⟩, fun fails => absurd fails (by simp)⟩
      · dsimp only at atIndex
        split at atIndex
        · next inRange =>
            cases atIndex
            obtain ⟨ai, here⟩ := Option.ne_none_iff_exists'.mp
              (mt place_absent.mp (not_not.mpr inRange))
            exact ⟨ai.entry, by rw [collect_place, here]; rfl, index ai here⟩
        · cases atIndex
      · dsimp only at gone inside
        split at gone
        · cases gone
        · next outside =>
            obtain ⟨ai, kept, rfl⟩ := List.mem_map.mp inside
            obtain ⟨inside, usable⟩ := List.mem_filter.mp kept
            exact absent (place_absent.mpr outside) ai inside (of_decide_eq_true usable)

theorem aligned_of_contract {resolver : Resolver} {host : Bytes} {port : UInt16} {r : ResolveResult}
    (run : resolveCore resolver host port options = some r)
    (contract : Contract options (answered resolver host port options) r) :
    Aligned options (answered resolver host port options) := by
  rcases resolveCore_cases resolver host port options with
    ⟨never, -⟩ | ⟨before, selected, after, same, none, admitted, taken⟩
  · exact aligned_of_never never
  · rw [taken] at run
    rw [same] at run contract ⊢
    have found := find_split.mpr ⟨admitted, before, after, rfl, none⟩
    have readable : Readable options selected := by
      by_contra unreadable
      rw [store_unreadable admitted unreadable] at run
      cases run
    refine ⟨fun selected' found' => ?_, fun before' selected' after' same' none' admitted' fits => ?_⟩
    · cases found.symm.trans found'
      exact readable
    · obtain ⟨rfl, rfl, rfl⟩ := split_unique same' none none' admitted admitted'
      rw [store_readable admitted readable fits] at run
      cases run
      obtain ⟨selected', found', -, index, absent⟩ := contract.selected rfl
      cases found.symm.trans found'
      refine ⟨fun ai here => ?_, fun gone ai inside usable => ?_⟩
      · have inRange := not_imp_comm.mp place_absent.mpr (here ▸ Option.some_ne_none ai)
        obtain ⟨e, atIndex, address⟩ := index _ (if_pos inRange)
        rw [collect_place, here] at atIndex
        cases atIndex
        exact address
      · refine absent (if_neg (place_absent.mp gone)) _ ?_
        exact List.mem_map_of_mem (List.mem_filter.mpr ⟨inside, decide_eq_true usable⟩)

/-- `getaddrinfo` returns usable entries, and the promise is kept. -/
theorem contract_of_usable {resolver : Resolver} {host : Bytes} {port : UInt16}
    (usable : ∀ ai ∈ answered resolver host port options, ai.Usable ∧ 8 ≤ ai.addrlen) :
    ∃ r, resolveCore resolver host port options = some r ∧
      Contract options (answered resolver host port options) r := by
  apply contract_of_aligned
  generalize answered resolver host port options = list at usable
  refine ⟨fun selected found => ?_, ?_⟩
  · obtain ⟨⟨present, -, -⟩, long⟩ := usable selected (List.mem_of_find?_eq_some found)
    unfold Readable
    split
    · intro absent
      rw [absent] at present
      cases present
    · exact ⟨fun absent => by simp [absent] at present, long⟩
  · rintro before selected after rfl none admitted -
    have unshifted : before.countP (¬ ·.Usable) = 0 := by
      refine List.countP_eq_zero.mpr fun ai inside => ?_
      simpa using (usable ai (List.mem_append_left _ inside)).1
    have here : shifted before selected after = some selected := by
      rw [shifted, unshifted, List.filter_cons_of_pos (by simp [(usable selected (by simp)).1])]
      rfl
    rw [here]
    refine ⟨fun ai same => ?_, fun gone => by cases gone⟩
    cases same
    exact .inl rfl

/-- **The selected index.**  `resolve_core` comes to an end and keeps its promise for the lists
whose entries are aligned, and for no other ones. -/
theorem contract_iff (resolver : Resolver) (host : Bytes) (port : UInt16)
    (options : ResolveOptions) :
    (∃ r, resolveCore resolver host port options = some r ∧
      Contract options (answered resolver host port options) r) ↔
    Aligned options (answered resolver host port options) := by
  constructor
  · rintro ⟨r, run, contract⟩
    exact aligned_of_contract run contract
  · exact contract_of_aligned

/-! ## An entry without address in front -/

/-- An IPv4 address with port 80 as a `sockaddr_in`. -/
def ipv4 (last : UInt8) : AddrInfo where
  family := afInet
  addr := some ([2, 0, 0, 80, 10, 0, 0, last] ++ List.replicate 8 0)
  addrlen := 16
  whole := by
    rintro bytes ⟨⟩
    rfl

/-- An entry of another family, without address. -/
def noAddress : AddrInfo where
  family := afInet6
  addr := none
  addrlen := 0
  whole := by
    rintro bytes ⟨⟩

def shiftedResolver : Resolver where
  getaddrinfo _ _ _ := (0, [noAddress, ipv4 1, ipv4 2])
  gaiStrerror _ := ""

/-- **The index of another address.**  `10.0.0.1` is selected and stored, and the index is that of
`10.0.0.2`. -/
theorem index_of_other : ¬ ∀ resolver host port options, ∃ r,
    resolveCore resolver host port options = some r ∧
      Contract options (answered resolver host port options) r := by
  intro always
  obtain ⟨r, run, contract⟩ := always shiftedResolver [97] 80 { family := afInet }
  have kept : resolveCore shiftedResolver [97] 80 { family := afInet } = some
      { success := true
        storage := (ipv4 1).entry.addr
        length := 16
        endpoints := [(ipv4 1).entry, (ipv4 2).entry]
        selectedIndex := some 1 } := by
    rfl
  cases kept.symm.trans run
  obtain ⟨selected, found, -, index, -⟩ := contract.selected rfl
  obtain ⟨e, atIndex, address⟩ := index 1 rfl
  cases atIndex
  have first : some (ipv4 1) = some selected := found
  cases first
  revert address
  decide

end CoWq.ResolveCore
