import VgiWorker.Storage.CloudflareDo

/-! Page by page the client gets the rows of a whole scan or drain, however the server cuts its pages, as
long as no page but the last ends with the empty key: the text of that key ends the loop. -/

namespace VgiWorker.Storage.CloudflareDo

section Wire

@[simp] theorem unb64_b64' (data : Bytes) : unb64 (b64 data) = some data := unb64_b64 data

@[simp] theorem mapM_unb64_map (items : List Bytes) : (items.map b64).mapM unb64 = some items := by
  induction items with
  | nil => rfl
  | cons item items ih => simp [ih]

@[simp] theorem mapM_unb64_option (item : Option Bytes) : (item.map b64).mapM unb64 = some item := by
  cases item <;> simp

@[simp] theorem mapM_unb64_pairs (rows : List (Bytes × Bytes)) :
    (rows.map fun row => (b64 row.1, b64 row.2)).mapM (fun row => do return (← unb64 row.1, ← unb64 row.2)) =
      some rows := by
  induction rows with
  | nil => rfl
  | cons => simp_all

theorem b64_ne_nil (some : key ≠ []) : b64 key ≠ [] := Base64.encodeStandard_ne_nil some

end Wire

section Loop

variable {pageSize : PageSize} {request : Option Text → Option Nat → Request} {limit : Int} {start final : Backend}
  {rows rest out : List (Bytes × Bytes)} {afterKey : Text}

/-- The rows up to a limit, if there is one. -/
def bounded (limit : Int) (rows : List (Bytes × Bytes)) : List (Bytes × Bytes) :=
  if 0 < limit then rows.take limit.toNat else rows

/-- The cursor and the limit the loop sends. -/
def asks (request : Option Text → Option Nat → Request) (limit : Int) (out : List (Bytes × Bytes)) (afterKey : Text) :
    Request :=
  request (if afterKey = [] then none else some afterKey) (if 0 < limit then some (limit - out.length).toNat else none)

section

variable (answered : post pageSize (asks request limit out afterKey) start = (pageOf pageSize limitSent rest, final))

include answered

/-- What the loop does with the first rows of those that are left. -/
theorem statePaged_page (isCount : count = min (max 1 (pageSize rest)) (limitSent.getD rest.length)) :
    statePaged pageSize request limit (fuel + 1) out afterKey start =
      if 0 < limit ∧ limit ≤ (out ++ rest.take count).length then
        (some ((out ++ rest.take count).take limit.toNat), final)
      else if rest.length ≤ count then (some (out ++ rest.take count), final)
      else
        let nextAfter := ((rest.take count).getLast?.map fun row => b64 row.1).getD []
        if nextAfter = [] then (some (out ++ rest.take count), final)
        else statePaged pageSize request limit fuel (out ++ rest.take count) nextAfter final := by
  rw [statePaged]
  simp only [asks] at answered
  simp only [answered, pageOf, ← isCount, mapM_unb64_pairs, List.length_take]
  by_cases more : rest.length ≤ count
  · simp [more]
  · have shorter : min count rest.length < rest.length := by omega
    simp only [if_pos shorter, if_neg more]

/-- One round of the loop: it ends with all rows, or the rest is behind the last row of the page. -/
theorem statePaged_round
    (room : ∀ n ∈ limitSent, 0 < n) (keyed : ∀ shown last more, rest = shown ++ last :: more → more ≠ [] →
      (0 < limit → (out ++ shown ++ [last]).length < limit) →
      shown.length + 1 = min (max 1 (pageSize rest)) (limitSent.getD rest.length) → last.1 ≠ []) :
    statePaged pageSize request limit (fuel + 1) out afterKey start = (some (bounded limit (out ++ rest)), final) ∨
      ∃ shown last more, rest = shown ++ last :: more ∧ more ≠ [] ∧ last.1 ≠ [] ∧
        (0 < limit → (out ++ shown ++ [last]).length < limit) ∧
        statePaged pageSize request limit (fuel + 1) out afterKey start =
          statePaged pageSize request limit fuel (out ++ shown ++ [last]) (b64 last.1) final := by
  obtain ⟨count, isCount⟩ : ∃ count, count = min (max 1 (pageSize rest)) (limitSent.getD rest.length) := ⟨_, rfl⟩
  rw [statePaged_page answered isCount]
  by_cases full : 0 < limit ∧ limit ≤ (out ++ rest.take count).length
  · left
    have enough : limit.toNat ≤ (out ++ rest.take count).length := by omega
    have whole : out ++ rest = out ++ rest.take count ++ rest.drop count := by
      rw [List.append_assoc, List.take_append_drop]
    rw [if_pos full, bounded, if_pos full.1, whole, List.take_append_of_le_length enough]
  · by_cases all : rest.length ≤ count
    · left
      rw [List.take_of_length_le all] at full ⊢
      rw [if_neg full, if_pos all, bounded]
      split
      · rw [List.take_of_length_le (by omega)]
      · rfl
    · right
      have positive : 0 < count := by
        have one : 0 < limitSent.getD rest.length := by
          cases limitSent with
          | none =>
            simp only [Option.getD_none]
            omega
          | some n => exact room n rfl
        omega
      obtain ⟨shown, last, isShown⟩ : ∃ shown last, rest.take count = shown ++ [last] := by
        rcases List.eq_nil_or_concat (rest.take count) with none | ⟨shown, last, isShown⟩
        · rw [List.take_eq_nil_iff] at none
          rcases none with rfl | rfl
          · omega
          · simp at all
        · exact ⟨shown, last, by simpa using isShown⟩
      have whole : rest = shown ++ last :: rest.drop count := by
        conv_lhs => rw [← List.take_append_drop count rest, isShown]
        simp
      have further : rest.drop count ≠ [] := by simpa using Nat.lt_of_not_le all
      have below : 0 < limit → (out ++ shown ++ [last]).length < limit := by
        intro _
        rw [List.append_assoc, ← isShown]
        omega
      have named : last.1 ≠ [] := by
        refine keyed shown last _ whole further below ?_
        have size := congrArg List.length isShown
        simp only [List.length_take, List.length_append, List.length_singleton] at size
        omega
      refine ⟨shown, last, rest.drop count, whole, further, named, below, ?_⟩
      rw [if_neg full, if_neg all, isShown]
      simp [b64_ne_nil named]

end

/-- The server answers for the rows: from the start, and behind each row it has shown. -/
structure Serves (pageSize : PageSize) (request : Option Text → Option Nat → Request) (limit : Int)
    (rows : List (Bytes × Bytes)) (start final : Backend) : Prop where
  first : ∀ n, (0 < limit ∨ n = none) → post pageSize (request none n) start = (pageOf pageSize n rows, final)
  behind : ∀ shown last rest n, rows = shown ++ last :: rest → (0 < limit ∨ n = none) →
    post pageSize (request (some (b64 last.1)) n) final = (pageOf pageSize n rest, final)

theorem statePaged_behind (serves : Serves pageSize request limit rows start final)
    (whole : rows = shown ++ last :: rest) (keyed : ∀ row ∈ rest.dropLast, row.1 ≠ []) (named : last.1 ≠ [])
    (enough : rest.length < fuel) (below : 0 < limit → (shown ++ [last]).length < limit) :
    statePaged pageSize request limit fuel (shown ++ [last]) (b64 last.1) final =
      (some (bounded limit rows), final) := by
  induction fuel generalizing shown last rest with
  | zero => omega
  | succ fuel ih =>
    have answered : post pageSize (asks request limit (shown ++ [last]) (b64 last.1)) final =
        (pageOf pageSize (if 0 < limit then some (limit - (shown ++ [last]).length).toNat else none) rest, final) := by
      rw [asks, if_neg (b64_ne_nil named)]
      exact serves.behind shown last rest _ whole (by split <;> simp [*])
    have room : ∀ n ∈ (if 0 < limit then some (limit - (shown ++ [last]).length).toNat else none : Option Nat),
        0 < n := by
      intro _ isLimit
      split at isLimit
      · have := below (by assumption)
        cases isLimit
        omega
      · cases isLimit
    have inner {next more : List (Bytes × Bytes)} {nextLast : Bytes × Bytes} (isRest : rest = next ++ nextLast :: more)
        (further : more ≠ []) : ∀ row ∈ nextLast :: more.dropLast, row.1 ≠ [] := by
      intro row member
      apply keyed
      rw [isRest, List.dropLast_append_of_ne_nil (List.cons_ne_nil _ _), List.dropLast_cons_of_ne_nil further]
      exact List.mem_append_right _ member
    rcases statePaged_round answered room fun _ _ _ isRest further _ _ => inner isRest further _ (.head _) with
      ended | ⟨next, nextLast, more, isRest, further, nextNamed, stillBelow, goesOn⟩
    · rw [ended, whole]
      simp
    · have nextWhole : rows = (shown ++ [last] ++ next) ++ nextLast :: more := by
        rw [whole, isRest]
        simp
      have fewer : more.length < fuel := by
        rw [isRest, List.length_append, List.length_cons] at enough
        omega
      rw [goesOn]
      exact ih nextWhole (fun row member => inner isRest further row (.tail _ member)) nextNamed fewer stillBelow

/-- No page but the last ends with the empty key: the first page may, if it has one row. -/
structure PagesNamed (pageSize : PageSize) (limit : Int) (rows : List (Bytes × Bytes)) : Prop where
  inner : ∀ row ∈ rows.tail.dropLast, row.1 ≠ []
  first : ∀ row ∈ rows.head?, row.1 ≠ [] ∨ limit = 1 ∨ rows.length = 1 ∨ 1 < pageSize rows

theorem PagesNamed.of_keyed (keyed : ∀ row ∈ rows, row.1 ≠ []) : PagesNamed pageSize limit rows where
  inner _ member := keyed _ (List.mem_of_mem_tail ((List.dropLast_sublist _).subset member))
  first _ member := Or.inl (keyed _ (List.mem_of_head? member))

theorem PagesNamed.named (pages : PagesNamed pageSize limit rows) (whole : rows = shown ++ last :: more)
    (further : more ≠ []) (below : 0 < limit → (shown ++ [last]).length < limit)
    (isCount : shown.length + 1 = min (max 1 (pageSize rows))
      ((if 0 < limit then some limit.toNat else none : Option Nat).getD rows.length)) : last.1 ≠ [] := by
  cases shown with
  | cons =>
    apply pages.inner
    rw [whole, List.cons_append, List.tail_cons, List.dropLast_append_of_ne_nil (List.cons_ne_nil _ _),
      List.dropLast_cons_of_ne_nil further]
    simp
  | nil =>
    have size : rows.length = more.length + 1 := by simp [whole]
    have positive : 0 < more.length := List.length_pos_iff.mpr further
    rcases pages.first last (by simp [whole]) with isNamed | rfl | _ | _
    · exact isNamed
    · simp at below
    · omega
    · simp only [List.length_nil, List.nil_append, List.length_singleton] at isCount below
      split at isCount
      · have := below (by assumption)
        simp only [Option.getD_some] at isCount
        omega
      · simp only [Option.getD_none] at isCount
        omega

/-- The loop returns the rows up to the limit, in a number of requests that the rows bound. -/
theorem statePaged_eq (serves : Serves pageSize request limit rows start final)
    (pages : PagesNamed pageSize limit rows) (enough : rows.length < fuel) :
    statePaged pageSize request limit fuel [] [] start = (some (bounded limit rows), final) := by
  obtain ⟨fuel, rfl⟩ := Nat.exists_eq_succ_of_ne_zero (Nat.ne_of_gt (Nat.lt_of_le_of_lt (Nat.zero_le _) enough))
  have answered : post pageSize (asks request limit [] []) start =
      (pageOf pageSize (if 0 < limit then some limit.toNat else none) rows, final) := by
    simpa [asks] using serves.first (if 0 < limit then some limit.toNat else none) (by split <;> simp [*])
  have room : ∀ n ∈ (if 0 < limit then some limit.toNat else none : Option Nat), 0 < n := by
    intro _ isLimit
    split at isLimit
    · cases isLimit
      omega
    · cases isLimit
  rcases statePaged_round answered room fun _ _ _ => pages.named with
    ended | ⟨next, last, more, isRest, further, named, below, goesOn⟩
  · exact ended
  · have fewer : more.length < fuel := by
      rw [isRest, List.length_append, List.length_cons] at enough
      omega
    have moreKeyed : ∀ row ∈ more.dropLast, row.1 ≠ [] := by
      intro _ member
      apply pages.inner
      rw [isRest]
      cases next with
      | nil => exact member
      | cons =>
        rw [List.cons_append, List.tail_cons, List.dropLast_append_of_ne_nil (List.cons_ne_nil _ _),
          List.dropLast_cons_of_ne_nil further]
        simp [member]
    rw [goesOn]
    exact statePaged_behind serves isRest moreKeyed named fewer below

end Loop

section Servers

variable {pageSize : PageSize} {backend : Backend} {scope ns : Bytes}

theorem select_ascending (tables : Tables) (scope ns : Bytes) (start stop : Option Bytes) :
    KeyedTable.Ascending (tables.select scope ns start stop) :=
  (tables.state.orderBy_ascending fun _ _ _ => Slot.within_inj).filter _

theorem behindKey_append
    (ordered : (shown ++ last :: rest).Pairwise fun left right => if reverse then right.1 < left.1
      else left.1 < right.1) :
    behindKey reverse (some last.1) (shown ++ last :: rest) = rest := by
  have left := KeyedTable.behind_append
    (fun left right : Bytes × Bytes => if reverse then right.1 < left.1 else left.1 < right.1) ?_ ?_ ordered
  · cases reverse
    · simpa only [behindKey, KeyedTable.behind, Bool.false_eq_true, if_false] using left
    · simpa only [behindKey, KeyedTable.behind, if_true] using left
  · intro _
    cases reverse <;> simp
  · intro _ _ before
    cases reverse
    · simpa using le_of_lt (by simpa using before)
    · simpa using le_of_lt (by simpa using before)

/-- The rows of a scan in its direction. -/
def directed (opts : AttachScanOptions) (rows : List (Bytes × Bytes)) : List (Bytes × Bytes) :=
  if opts.reverse then rows.reverse else rows

theorem mem_directed : row ∈ directed opts rows ↔ row ∈ rows := by
  unfold directed
  split <;> simp

theorem directed_ordered (tables : Tables) (opts : AttachScanOptions) :
    (directed opts (tables.select scope ns opts.start opts.stop)).Pairwise
      fun left right => if opts.reverse then right.1 < left.1 else left.1 < right.1 := by
  have ascending := select_ascending tables scope ns opts.start opts.stop
  unfold directed
  cases opts.reverse
  · simpa [KeyedTable.Ascending] using ascending
  · simpa [KeyedTable.Ascending, List.pairwise_reverse] using ascending

theorem scan_serves (opts : AttachScanOptions) :
    Serves pageSize (fun afterKey limit => .stateScan
        { scopeID := b64 scope, ns := b64 ns, afterKey, start := opts.start.map b64, stop := opts.stop.map b64,
          reverse := opts.reverse, limit })
      opts.limit (directed opts (backend.tables.select scope ns opts.start opts.stop)) backend backend where
  first n _ := by
    simp [post, serveTables, serveScan, behindKey, directed]
  behind shown last rest n whole _ := by
    have ordered := @directed_ordered scope ns backend.tables opts
    have left := behindKey_append (whole ▸ ordered)
    rw [← whole, directed] at left
    simp [post, serveTables, serveScan, left]

/-- The backend after a drain of the namespace. -/
def afterDrain (scope ns : Bytes) (attemptID : Nat) (backend : Backend) : Backend :=
  { backend with tables := (backend.tables.deleteState scope ns fun _ => true).2,
                 drained := (attemptID, backend.tables.select scope ns none none) :: backend.drained }

theorem drain_serves {attemptID : Nat} (unused : backend.drained.lookup attemptID = none) :
    Serves pageSize (fun afterKey _ => .stateDrain { scopeID := b64 scope, ns := b64 ns, afterKey } attemptID)
      0 (backend.tables.select scope ns none none) backend (afterDrain scope ns attemptID backend) where
  first n isNone := by
    obtain rfl := isNone.resolve_left (Int.lt_irrefl 0)
    simp [post, serveDrain, unused, behindKey, afterDrain]
  behind shown last rest n whole isNone := by
    obtain rfl := isNone.resolve_left (Int.lt_irrefl 0)
    have ascending := select_ascending backend.tables scope ns none none
    have left : behindKey false (some last.1) (shown ++ last :: rest) = rest :=
      behindKey_append (by simpa [KeyedTable.Ascending, whole] using ascending)
    rw [← whole] at left
    simp [post, serveDrain, afterDrain, left]

/-- The client has not used the attempt ids to come. -/
def Fresh (backend : Backend) : Prop := ∀ entry ∈ backend.drained, entry.1 < backend.attempts

theorem Fresh.unused (fresh : Fresh backend) : backend.drained.lookup backend.attempts = none := by
  rw [List.lookup_eq_none_iff]
  intro entry member
  have older := fresh entry member
  simpa using Nat.ne_of_gt older

theorem length_select_le (tables : Tables) (start stop : Option Bytes) :
    (tables.select scope ns start stop).length ≤ tables.state.rows.length := by
  refine (List.length_filter_le _ _).trans ?_
  rw [KeyedTable.orderBy, List.length_insertionSort]
  exact List.length_filterMap_le _ _

/-- A scan returns the rows of its range, in its direction and up to its limit. -/
theorem scanPages_eq (opts : AttachScanOptions)
    (pages : PagesNamed pageSize opts.limit (directed opts (backend.tables.select scope ns opts.start opts.stop))) :
    scanPages pageSize scope ns opts backend =
      (some (bounded opts.limit (directed opts (backend.tables.select scope ns opts.start opts.stop))), backend) := by
  apply statePaged_eq (scan_serves opts) pages
  · have few := @length_select_le scope ns backend.tables opts.start opts.stop
    have same : (directed opts (backend.tables.select scope ns opts.start opts.stop)).length =
        (backend.tables.select scope ns opts.start opts.stop).length := by
      unfold directed
      split <;> simp
    rw [same]
    exact Nat.lt_succ_of_le few

/-- A drain returns all rows of the namespace, and takes them out. -/
theorem drainPages_eq (fresh : Fresh backend) (keyed : ∀ row ∈ backend.tables.select scope ns none none, row.1 ≠ []) :
    drainPages pageSize scope ns backend =
      (some (backend.tables.select scope ns none none),
        afterDrain scope ns backend.attempts { backend with attempts := backend.attempts + 1 }) := by
  have unused : ({ backend with attempts := backend.attempts + 1 } : Backend).drained.lookup backend.attempts = none :=
    fresh.unused
  have few := @length_select_le scope ns backend.tables none none
  have enough : (backend.tables.select scope ns none none).length <
      fuelFor { backend with attempts := backend.attempts + 1 } := Nat.lt_succ_of_le few
  have all := statePaged_eq (@drain_serves pageSize _ scope ns _ unused) (.of_keyed keyed) enough
  simpa [drainPages, newAttemptID, bounded] using all

theorem Fresh.afterDrain (fresh : Fresh backend) :
    Fresh (afterDrain scope ns backend.attempts { backend with attempts := backend.attempts + 1 }) := by
  intro entry member
  rcases List.mem_cons.mp member with rfl | old
  · exact Nat.lt_succ_self _
  · exact Nat.lt_succ_of_lt (fresh entry old)

/-- All entries of the range that is asked for, each once and in its order. -/
structure Lists (tables : Tables) (scope ns : Bytes) (opts : AttachScanOptions) (rows : List (Bytes × Bytes)) :
    Prop where
  mem_iff : ∀ key value, (key, value) ∈ rows ↔
    tables.stateAt scope ns key = some value ∧ Tables.inRange opts.start opts.stop key = true
  ordered : rows.Pairwise fun left right => if opts.reverse then right.1 < left.1 else left.1 < right.1

theorem lists_select (tables : Tables) (opts : AttachScanOptions) :
    Lists tables scope ns opts (directed opts (tables.select scope ns opts.start opts.stop)) where
  ordered := directed_ordered tables opts
  mem_iff key value := by rw [mem_directed, Tables.mem_select]

theorem Lists.unique (isFirst : Lists tables scope ns opts first) (isSecond : Lists tables scope ns opts second) :
    first = second := by
  have nodup {rows : List (Bytes × Bytes)} (lists : Lists tables scope ns opts rows) : rows.Nodup := by
    refine lists.ordered.imp ?_
    rintro _ _ before rfl
    cases opts.reverse <;> simp at before
  refine List.Perm.eq_of_pairwise ?_ isFirst.ordered isSecond.ordered ?_
  · intro _ _ _ _ before after
    split at before
    · rw [if_pos (by assumption)] at after
      exact absurd after (lt_asymm before)
    · rw [if_neg (by assumption)] at after
      exact absurd after (lt_asymm before)
  · rw [List.perm_ext_iff_of_nodup (nodup isFirst) (nodup isSecond)]
    rintro ⟨_⟩
    rw [isFirst.mem_iff, isSecond.mem_iff]

/-- A first page that holds the empty key alone is taken for the last. -/
theorem scanPages_stops
    (rows : directed opts (backend.tables.select scope ns opts.start opts.stop) = ([], value) :: rest)
    (several : opts.limit ≠ 1) (onePage : pageSize (([], value) :: rest) ≤ 1) :
    (scanPages pageSize scope ns opts backend).1 = some [([], value)] := by
  have answered := (@scan_serves pageSize backend scope ns opts).first
    (if 0 < opts.limit then some opts.limit.toNat else none) (by split <;> simp [*])
  rw [rows] at answered
  have isCount : 1 = min (max 1 (pageSize (([], value) :: rest)))
      ((if 0 < opts.limit then some opts.limit.toNat else none : Option Nat).getD (([], value) :: rest).length) := by
    split
    · simp only [Option.getD_some]
      omega
    · simp only [Option.getD_none, List.length_cons]
      omega
  rw [scanPages, fuelFor, statePaged_page (by simpa [asks] using answered) isCount]
  have few : ¬ (0 < opts.limit ∧ opts.limit ≤ 1) := by omega
  have ended : b64 [] = [] := rfl
  simp [few, ended]

/-- The empty key comes first or last. -/
theorem Lists.inner (lists : Lists tables scope ns opts rows) : ∀ row ∈ rows.tail.dropLast, row.1 ≠ [] := by
  rintro ⟨_⟩ member rfl
  cases rows with
  | nil => cases member
  | cons head tail =>
    have ordered := List.pairwise_cons.mp lists.ordered
    have before := ordered.1 _ ((List.dropLast_sublist _).subset member)
    have isTail : tail.dropLast ++ [tail.getLast _] = tail :=
      List.dropLast_append_getLast (List.ne_nil_of_mem ((List.dropLast_sublist _).subset member))
    have after := (List.pairwise_append.mp (isTail ▸ ordered.2)).2.2 _ member _ (.head _)
    cases isReverse : opts.reverse with
    | false => simp [isReverse] at before
    | true => simp [isReverse] at after

theorem Lists.head_ne_nil (lists : Lists tables scope ns opts (row :: next :: rest))
    (isReverse : opts.reverse = true) : row.1 ≠ [] := by
  have before := (List.pairwise_cons.mp lists.ordered).1 next (.head _)
  rw [if_pos isReverse] at before
  exact fun empty => List.not_lt_nil _ (empty ▸ before)

theorem Lists.eq_cons (lists : Lists tables scope ns opts rows) (forward : opts.reverse = false)
    (stored : tables.stateAt scope ns [] = some value) (inRange : Tables.inRange opts.start opts.stop [] = true) :
    ∃ rest, rows = ([], value) :: rest := by
  have member := (lists.mem_iff [] value).mpr ⟨stored, inRange⟩
  cases rows with
  | nil => cases member
  | cons head tail =>
    rcases List.mem_cons.mp member with rfl | later
    · exact ⟨tail, rfl⟩
    · have before := (List.pairwise_cons.mp lists.ordered).1 _ later
      simp [forward] at before

/-- A scan goes wrong exactly when it ascends from the empty key to others and its first page has one row. -/
theorem scan_exact_iff (opts : AttachScanOptions) :
    (∃ rows, Lists backend.tables scope ns opts rows ∧
      (scanPages pageSize scope ns opts backend).1 = some (bounded opts.limit rows)) ↔
    opts.reverse = true ∨ opts.limit = 1 ∨ backend.tables.stateAt scope ns [] = none ∨
      Tables.inRange opts.start opts.stop [] = false ∨
        (backend.tables.select scope ns opts.start opts.stop).length = 1 ∨
      1 < pageSize (backend.tables.select scope ns opts.start opts.stop) := by
  have lists := @lists_select scope ns backend.tables opts
  constructor
  · rintro ⟨_, isRows, scanned⟩
    obtain rfl := isRows.unique lists
    by_contra! wrong
    obtain ⟨forward, several, stored, inRange, more, onePage⟩ := wrong
    rw [ne_eq, Bool.not_eq_true] at forward
    obtain ⟨value, isValue⟩ := Option.ne_none_iff_exists'.mp stored
    obtain ⟨rest, isFirst⟩ := lists.eq_cons forward isValue (by simpa using inRange)
    have isSelect : backend.tables.select scope ns opts.start opts.stop = ([], value) :: rest := by
      simpa [directed, forward] using isFirst
    rw [isSelect] at onePage more
    rw [scanPages_stops isFirst several onePage, isFirst] at scanned
    have size := congrArg List.length (Option.some.inj scanned)
    have positive : 0 < rest.length := List.length_pos_iff.mpr (by simpa using more)
    unfold bounded at size
    split at size
    · simp only [List.length_take, List.length_cons, List.length_nil] at size
      omega
    · simp only [List.length_cons, List.length_nil] at size
      omega
  · intro condition
    refine ⟨_, lists, congrArg Prod.fst (scanPages_eq opts ⟨lists.inner, ?_⟩)⟩
    intro row isHead
    by_cases empty : row.1 = []
    · right
      obtain ⟨rest, isRows⟩ := List.head?_eq_some_iff.mp isHead
      have stored := (lists.mem_iff row.1 row.2).mp (isRows ▸ .head _)
      rw [empty] at stored
      cases isReverse : opts.reverse with
      | true =>
        cases rest with
        | nil => simp [isRows]
        | cons => exact absurd empty ((isRows ▸ lists).head_ne_nil isReverse)
      | false =>
        simp only [isReverse, stored.1, stored.2, reduceCtorEq, false_or] at condition
        simpa only [directed, isReverse, Bool.false_eq_true, if_false] using condition
    · exact Or.inl empty

end Servers

/-- An attach scope with state under the empty key and under another one. -/
def emptyKeyBackend : Backend where
  tables := (({} : Tables).putState [1] [2] ([], [3])).putState [1] [2] ([4], [5])

/-- With one row on a page the second entry is lost, without an error. -/
theorem entry_behind_empty_key_lost :
    scanPages (fun _ => 1) [1] [2] {} emptyKeyBackend = (some [([], [3])], emptyKeyBackend) ∧
      emptyKeyBackend.tables.stateAt [1] [2] [4] = some [5] := by
  decide +kernel

end VgiWorker.Storage.CloudflareDo
