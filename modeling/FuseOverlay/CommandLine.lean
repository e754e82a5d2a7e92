import FuseOverlay.Basic

namespace FuseOverlay

/-!
# Mount options on the command line

An option string passes three scanners.  `split_options` cuts it at commas and
keeps the escapes, `unescape_path` removes them from the upper and the work
directory, and `parse_lowerdir` cuts the lower directories at colons, where it
removes the escape of a colon and of nothing else.
-/

namespace CommandLine

/-- The characters of a string. -/
abbrev Text := List Char

/-- What `parse_option_string` sets; the type of a timeout is a parameter. -/
structure OverlayConfig (Timeout : Type) where
  lowerdir : Option Text
  upperdir : Option Text
  workdir : Option Text
  redirectDir : Option Text
  context : Option Text
  plugins : Option Text
  uidStr : Option Text
  gidStr : Option Text
  timeout : Timeout
  xattrPermissions : Int
  nfsFilehandles : Int
  threaded : Bool
  fsync : Bool
  fastInoCheck : Bool
  writeback : Bool
  disableXattrs : Bool
  squashToUid : Option UInt32
  squashToGid : Option UInt32
  debug : Bool
  foreground : Bool
  squashToRoot : Bool
  inoT32 : Bool
  staticNlink : Bool
  volatileMode : Bool
  noacl : Bool
  fuseOptions : List Text

/-- `FUSE_PASSTHROUGH_OPTS` -/
def fusePassthroughOpts : List Text :=
  ["allow_root", "default_permissions", "allow_other", "suid", "nosuid",
    "dev", "nodev", "exec", "noexec", "atime", "noatime", "diratime",
    "nodiratime", "splice_write", "splice_read", "splice_move",
    "kernel_cache", "max_write", "ro", "rw"].map String.toList

/-! ## Scanners -/

/-- A piece that is pushed unless it is empty. -/
def pushed (piece : Text) : List Text :=
  if piece.isEmpty then [] else [piece]

/-- The loop of `split_options` with its piece and its quote flag. -/
def splitFrom : Text → Bool → Text → List Text
  | current, _, [] => pushed current
  | current, _, ['\\'] => pushed current
  | current, inQuotes, '\\' :: next :: rest =>
      splitFrom (current ++ ['\\', next]) inQuotes rest
  | current, inQuotes, c :: rest =>
      if c = '"' then
        splitFrom (current ++ [c]) (!inQuotes) rest
      else if c = ',' ∧ inQuotes = false then
        pushed current ++ splitFrom [] inQuotes rest
      else
        splitFrom (current ++ [c]) inQuotes rest

/-- `split_options` -/
def splitOptions (text : Text) : List Text :=
  splitFrom [] false text

/-- `unescape_path` -/
def unescapePath : Text → Text
  | [] => []
  | ['\\'] => ['\\']
  | '\\' :: next :: rest => next :: unescapePath rest
  | c :: rest => c :: unescapePath rest

/-- The loop of `parse_lowerdir` with its piece. -/
def lowerFrom : Text → Text → List Text
  | current, [] => pushed current
  | current, '\\' :: ':' :: rest => lowerFrom (current ++ [':']) rest
  | current, c :: rest =>
      if c = ':' then
        pushed current ++ lowerFrom [] rest
      else
        lowerFrom (current ++ [c]) rest

/-- `parse_lowerdir` -/
def parseLowerdir (lowerdir : Text) : List Text :=
  lowerFrom [] lowerdir

/-! ## Options -/

/-- `str::split_once` -/
def splitOnce
    (separator : Char) :
    Text → Option (Text × Text)
  | [] => none
  | c :: rest =>
      if c = separator then
        some ([], rest)
      else
        (splitOnce separator rest).map fun parts => (c :: parts.1, parts.2)

/-- The value of decimal digits. -/
def parseDigits : Nat → Text → Option Nat
  | value, [] => some value
  | value, c :: rest =>
      if '0' ≤ c ∧ c ≤ '9' then
        parseDigits (value * 10 + (c.toNat - '0'.toNat)) rest
      else
        none

/-- At least one digit. -/
def parseNumber (text : Text) : Option Nat :=
  if text.isEmpty then none else parseDigits 0 text

/-- `str::parse::<u32>` -/
def parseU32 (text : Text) : Option UInt32 :=
  let digits := if text.head? = some '+' then text.tail else text
  match parseNumber digits with
  | some value => if value < 2 ^ 32 then some (UInt32.ofNat value) else none
  | none => none

/-- `str::parse::<i32>` -/
def parseI32 (text : Text) : Option Int :=
  if text.head? = some '-' then
    match parseNumber text.tail with
    | some value => if value ≤ 2 ^ 31 then some (-(value : Int)) else none
    | none => none
  else
    let digits := if text.head? = some '+' then text.tail else text
    match parseNumber digits with
    | some value => if value < 2 ^ 31 then some (value : Int) else none
    | none => none

section Options

variable
  {Timeout : Type}
  (parseTimeout : Text → Option Timeout)

/-- A value that has to be read, with the error text of its option. -/
def readValue
    {Value : Type}
    (name : String)
    (value : Text)
    (found : Option Value) :
    Except Text Value :=
  match found with
  | some result => .ok result
  | none => .error ("invalid ".toList ++ name.toList ++
      " value: ".toList ++ value)

/-- The options `key=value` of `parse_single_option`. -/
def parseKeyValue
    (opt key value : Text)
    (config : OverlayConfig Timeout) :
    Except Text (OverlayConfig Timeout) :=
  if key = "lowerdir".toList then
    .ok { config with lowerdir := some value }
  else if key = "upperdir".toList then
    .ok { config with upperdir := some (unescapePath value) }
  else if key = "workdir".toList then
    .ok { config with workdir := some (unescapePath value) }
  else if key = "redirect_dir".toList then
    .ok { config with redirectDir := some value }
  else if key = "context".toList then
    .ok { config with context := some value }
  else if key = "uidmapping".toList then
    .ok { config with uidStr := some value }
  else if key = "gidmapping".toList then
    .ok { config with gidStr := some value }
  else if key = "timeout".toList then
    (readValue "timeout" value (parseTimeout value)).map fun timeout =>
      { config with timeout := timeout }
  else if key = "threaded".toList then
    (readValue "threaded" value (parseI32 value)).map fun (number : Int) =>
      { config with threaded := number ≠ 0 }
  else if key = "fsync".toList ∨ key = "sync".toList then
    (readValue "fsync" value (parseI32 value)).map fun (number : Int) =>
      { config with fsync := number ≠ 0 }
  else if key = "fast_ino".toList ∨ key = "fast_ino_check".toList then
    (readValue "fast_ino" value (parseI32 value)).map fun (number : Int) =>
      { config with fastInoCheck := number ≠ 0 }
  else if key = "writeback".toList then
    (readValue "writeback" value (parseI32 value)).map fun (number : Int) =>
      { config with writeback := number ≠ 0 }
  else if key = "noxattrs".toList then
    (readValue "noxattrs" value (parseI32 value)).map fun (number : Int) =>
      { config with disableXattrs := number ≠ 0 }
  else if key = "plugins".toList then
    .ok { config with plugins := some value }
  else if key = "xattr_permissions".toList then
    (readValue "xattr_permissions" value (parseI32 value)).map fun level =>
      { config with xattrPermissions := level }
  else if key = "squash_to_uid".toList then
    (readValue "squash_to_uid" value (parseU32 value)).map fun id =>
      { config with squashToUid := some id }
  else if key = "squash_to_gid".toList then
    (readValue "squash_to_gid" value (parseU32 value)).map fun id =>
      { config with squashToGid := some id }
  else if key = "xino".toList then
    if value = "off".toList then
      .ok { config with nfsFilehandles := 0 }
    else if value = "auto".toList then
      .ok { config with nfsFilehandles := 1 }
    else if value = "on".toList then
      .ok { config with nfsFilehandles := 2 }
    else
      .error ("invalid xino value: ".toList ++ value)
  else if key ∈ fusePassthroughOpts then
    .ok { config with fuseOptions := config.fuseOptions ++ [opt] }
  else
    .ok config

/-- The options without a value of `parse_single_option`. -/
def parseFlag
    (opt : Text)
    (config : OverlayConfig Timeout) :
    OverlayConfig Timeout :=
  if opt = "debug".toList then
    { config with
      debug := true
      foreground := true
      fuseOptions := config.fuseOptions ++ ["debug".toList] }
  else if opt = "squash_to_root".toList then
    { config with squashToRoot := true }
  else if opt = "ino32_t".toList then
    { config with inoT32 := true }
  else if opt = "static_nlink".toList then
    { config with staticNlink := true }
  else if opt = "volatile".toList then
    { config with volatileMode := true }
  else if opt = "noacl".toList then
    { config with noacl := true }
  else if opt ∈ fusePassthroughOpts then
    { config with fuseOptions := config.fuseOptions ++ [opt] }
  else
    config

/-- `parse_single_option` -/
def parseSingleOption
    (opt : Text)
    (config : OverlayConfig Timeout) :
    Except Text (OverlayConfig Timeout) :=
  match splitOnce '=' opt with
  | some (key, value) => parseKeyValue parseTimeout opt key value config
  | none => .ok (parseFlag opt config)

/-- The loop of `parse_option_string`: the first error ends it. -/
def parseOptions :
    List Text → OverlayConfig Timeout →
      Except Text (OverlayConfig Timeout)
  | [], config => .ok config
  | opt :: rest, config =>
      match parseSingleOption parseTimeout opt config with
      | .ok later => parseOptions rest later
      | .error message => .error message

/-- `parse_option_string` -/
def parseOptionString
    (opts : Text)
    (config : OverlayConfig Timeout) :
    Except Text (OverlayConfig Timeout) :=
  parseOptions parseTimeout (splitOptions opts) config

end Options

/-! ## Escaping -/

/-- A character that is written with a backslash before it. -/
def isEscaped (c : Char) : Bool :=
  c = '\\' || c = ':' || c = ',' || c = '"'

def escapeChar (c : Char) : Text :=
  if isEscaped c then ['\\', c] else [c]

/-- A path as it is written on the command line. -/
def escape (path : Text) : Text :=
  path.flatMap escapeChar

theorem escape_cons
    (c : Char)
    (path : Text) :
    escape (c :: path) = escapeChar c ++ escape path :=
  rfl

theorem escapeChar_of_escaped
    {c : Char}
    (escaped : isEscaped c = true) :
    escapeChar c = ['\\', c] := by
  unfold escapeChar
  rw [if_pos escaped]

theorem escapeChar_of_plain
    {c : Char}
    (plain : isEscaped c = false) :
    escapeChar c = [c] := by
  unfold escapeChar
  rw [if_neg (by simp [plain])]

/-- What a plain character is not. -/
theorem plain_ne
    {c : Char}
    (plain : isEscaped c = false) :
    c ≠ '\\' ∧ c ≠ ':' ∧ c ≠ ',' ∧ c ≠ '"' := by
  unfold isEscaped at plain
  simp only [Bool.or_eq_false_iff, decide_eq_false_iff_not] at plain
  exact ⟨plain.1.1.1, plain.1.1.2, plain.1.2, plain.2⟩

/-- `unescape_path` undoes the escapes. -/
theorem unescapePath_escape
    (path : Text) :
    unescapePath (escape path) = path := by
  induction path with
  | nil =>
      rfl
  | cons c path inductionHypothesis =>
      rw [escape_cons]
      cases escaped : isEscaped c with
      | true =>
          rw [escapeChar_of_escaped escaped]
          simp [unescapePath, inductionHypothesis]
      | false =>
          rw [escapeChar_of_plain escaped]
          simp [unescapePath, plain_ne escaped, inductionHypothesis]

/-! ## Cutting at commas -/

/-- Read from outside or inside quotes, the text ends outside, uncut. -/
def closes : Bool → Text → Bool
  | inQuotes, [] => !inQuotes
  | _, ['\\'] => false
  | inQuotes, '\\' :: _ :: rest => closes inQuotes rest
  | inQuotes, c :: rest =>
      if c = '"' then
        closes (!inQuotes) rest
      else if c = ',' ∧ inQuotes = false then
        false
      else
        closes inQuotes rest

section Plain

variable
  {c : Char}
  (noEscape : c ≠ '\\')
  (rest : Text)

include noEscape

/-- One turn of `split_options` on a character that is no backslash. -/
theorem splitFrom_cons
    (current : Text)
    (inQuotes : Bool) :
    splitFrom current inQuotes (c :: rest) =
      if c = '"' then
        splitFrom (current ++ [c]) (!inQuotes) rest
      else if c = ',' ∧ inQuotes = false then
        pushed current ++ splitFrom [] inQuotes rest
      else
        splitFrom (current ++ [c]) inQuotes rest := by
  rw [splitFrom] <;> simp [noEscape]

theorem closes_cons
    (inQuotes : Bool) :
    closes inQuotes (c :: rest) =
      if c = '"' then
        closes (!inQuotes) rest
      else if c = ',' ∧ inQuotes = false then
        false
      else
        closes inQuotes rest := by
  rw [closes] <;> simp [noEscape]

/-- One turn of `parse_lowerdir` on a character that is no backslash. -/
theorem lowerFrom_cons
    (current : Text) :
    lowerFrom current (c :: rest) =
      if c = ':' then
        pushed current ++ lowerFrom [] rest
      else
        lowerFrom (current ++ [c]) rest := by
  rw [lowerFrom]
  simp [noEscape]

end Plain

/-- A closed text is read into the piece as a whole. -/
theorem splitFrom_append
    {inQuotes : Bool}
    {text : Text}
    (closed : closes inQuotes text = true)
    (current rest : Text) :
    splitFrom current inQuotes (text ++ rest) =
      splitFrom (current ++ text) false rest := by
  induction inQuotes, text using closes.induct generalizing current with
  | case1 inQuotes =>
      simp_all [closes]
  | case2 inQuotes =>
      simp [closes] at closed
  | case3 inQuotes next text inductionHypothesis =>
      rw [closes] at closed
      simp [splitFrom, inductionHypothesis closed]
  | case4 inQuotes text notLast notEscape inductionHypothesis =>
      have noEscape : '"' ≠ '\\' := by decide
      rw [closes_cons noEscape, if_pos rfl] at closed
      rw [List.cons_append, splitFrom_cons noEscape, if_pos rfl,
        inductionHypothesis closed, List.append_assoc]
      rfl
  | case5 inQuotes c text notLast notEscape noQuote cuts =>
      have noEscape : c ≠ '\\' := by
        rintro rfl
        cases text with
        | nil =>
            exact notLast rfl rfl
        | cons next text =>
            exact notEscape next text rfl rfl
      rw [closes_cons noEscape, if_neg noQuote, if_pos cuts] at closed
      cases closed
  | case6 inQuotes c text notLast notEscape noQuote noCut
      inductionHypothesis =>
      have noEscape : c ≠ '\\' := by
        rintro rfl
        cases text with
        | nil =>
            exact notLast rfl rfl
        | cons next text =>
            exact notEscape next text rfl rfl
      rw [closes_cons noEscape, if_neg noQuote, if_neg noCut] at closed
      rw [List.cons_append, splitFrom_cons noEscape, if_neg noQuote,
        if_neg noCut, inductionHypothesis closed, List.append_assoc]
      rfl

/-- Escapes are passed over, outside quotes and inside. -/
theorem closes_escape
    (inQuotes : Bool)
    (path rest : Text) :
    closes inQuotes (escape path ++ rest) = closes inQuotes rest := by
  induction path with
  | nil =>
      rfl
  | cons c path inductionHypothesis =>
      rw [escape_cons]
      cases escaped : isEscaped c with
      | true =>
          rw [escapeChar_of_escaped escaped]
          simp [closes, inductionHypothesis]
      | false =>
          obtain ⟨noEscape, -, noComma, noQuote⟩ := plain_ne escaped
          rw [escapeChar_of_plain escaped, List.singleton_append,
            List.cons_append, closes_cons noEscape, if_neg noQuote,
            if_neg (fun cuts => noComma cuts.1), inductionHypothesis]

/-- The lower paths of an option, joined. -/
def joinLower (lowers : List Text) : Text :=
  [':'].intercalate (lowers.map escape)

theorem joinLower_cons_cons
    (path next : Text)
    (lowers : List Text) :
    joinLower (path :: next :: lowers) =
      escape path ++ ':' :: joinLower (next :: lowers) := by
  unfold joinLower
  rw [List.map_cons, List.map_cons, List.intercalate_cons_cons]
  simp

theorem joinLower_singleton
    (path : Text) :
    joinLower [path] = escape path :=
  List.intercalate_singleton

theorem closes_joinLower
    (lowers : List Text) :
    closes false (joinLower lowers) = true := by
  induction lowers with
  | nil =>
      rfl
  | cons path lowers inductionHypothesis =>
      cases lowers with
      | nil =>
          have whole := closes_escape false path []
          rw [List.append_nil] at whole
          rw [joinLower_singleton, whole]
          rfl
      | cons next lowers =>
          rw [joinLower_cons_cons, closes_escape,
            closes_cons (by decide), if_neg (by decide), if_neg (by simp)]
          exact inductionHypothesis

/-- Closed pieces between commas are the options. -/
theorem splitOptions_join
    {pieces : List Text}
    (closed : ∀ piece ∈ pieces, closes false piece = true) :
    splitOptions ([','].intercalate pieces) = pieces.flatMap pushed := by
  unfold splitOptions
  induction pieces with
  | nil =>
      rfl
  | cons piece pieces inductionHypothesis =>
      have first := closed piece List.mem_cons_self
      have later := inductionHypothesis fun other member =>
        closed other (List.mem_cons_of_mem piece member)
      cases pieces with
      | nil =>
          have whole := splitFrom_append first [] []
          rw [List.append_nil, List.nil_append] at whole
          rw [List.intercalate_singleton, whole]
          simp [splitFrom]
      | cons next pieces =>
          rw [List.intercalate_cons_cons, List.append_assoc,
            splitFrom_append first, List.nil_append, List.singleton_append,
            splitFrom_cons (by decide), if_neg (by decide), if_pos (by simp),
            later]
          rfl

/-! ## Cutting at colons -/

/-- The characters whose escape `parse_lowerdir` leaves in place. -/
def isKept (c : Char) : Bool :=
  c = '\\' || c = ',' || c = '"'

/-- Without such characters a path is read as it was. -/
theorem lowerFrom_escape
    {path : Text}
    (plain : ∀ c ∈ path, isKept c = false)
    (current rest : Text) :
    lowerFrom current (escape path ++ rest) =
      lowerFrom (current ++ path) rest := by
  induction path generalizing current with
  | nil =>
      simp [escape]
  | cons c path inductionHypothesis =>
      have later := inductionHypothesis fun other member =>
        plain other (List.mem_cons_of_mem c member)
      have first := plain c List.mem_cons_self
      rw [escape_cons]
      by_cases colon : c = ':'
      · subst colon
        rw [escapeChar_of_escaped rfl]
        simp [lowerFrom, later]
      · have unescaped : isEscaped c = false := by
          unfold isKept at first
          unfold isEscaped
          simp_all
        rw [escapeChar_of_plain unescaped, List.singleton_append,
          List.cons_append, lowerFrom_cons (plain_ne unescaped).1,
          if_neg colon, later, List.append_assoc]
        rfl

theorem pushed_of_filled
    {piece : Text}
    (filled : piece ≠ []) :
    pushed piece = [piece] := by
  unfold pushed
  rw [if_neg (by simpa using filled)]

theorem parseLowerdir_joinLower
    {lowers : List Text}
    (filled : ∀ path ∈ lowers, path ≠ [])
    (plain : ∀ path ∈ lowers, ∀ c ∈ path, isKept c = false) :
    parseLowerdir (joinLower lowers) = lowers := by
  unfold parseLowerdir
  induction lowers with
  | nil =>
      rfl
  | cons path lowers inductionHypothesis =>
      have first := plain path List.mem_cons_self
      have filledFirst := filled path List.mem_cons_self
      have later := inductionHypothesis
        (fun other member => filled other (List.mem_cons_of_mem path member))
        fun other member => plain other (List.mem_cons_of_mem path member)
      cases lowers with
      | nil =>
          have whole := lowerFrom_escape first [] []
          rw [List.append_nil, List.nil_append] at whole
          rw [joinLower_singleton, whole, lowerFrom,
            pushed_of_filled filledFirst]
      | cons next lowers =>
          rw [joinLower_cons_cons, lowerFrom_escape first, List.nil_append,
            lowerFrom_cons (by decide), if_pos rfl, later,
            pushed_of_filled filledFirst]
          rfl

/-- Every colon, escaped or not, costs one character. -/
theorem lowerFrom_length
    (current text : Text) :
    (lowerFrom current text).flatten.length + text.count ':' =
      current.length + text.length := by
  have pushes : ∀ piece : Text, (pushed piece).flatten.length = piece.length := by
    intro piece
    unfold pushed
    cases piece <;> simp
  induction current, text using lowerFrom.induct with
  | case1 current =>
      simp [lowerFrom, pushes]
  | case2 current rest inductionHypothesis =>
      rw [lowerFrom]
      simp at inductionHypothesis ⊢
      omega
  | case3 current rest notEscape inductionHypothesis =>
      rw [lowerFrom_cons (by decide), if_pos rfl]
      simp [pushes] at inductionHypothesis ⊢
      omega
  | case4 current c rest notEscape noColon inductionHypothesis =>
      rw [lowerFrom]
      · rw [if_neg noColon]
        simp [noColon] at inductionHypothesis ⊢
        omega
      · exact notEscape

/-- What the escapes add to the length of a path. -/
theorem escape_length
    (path : Text) :
    (escape path).length =
      path.length + path.countP isKept + (escape path).count ':' := by
  induction path with
  | nil =>
      rfl
  | cons c path inductionHypothesis =>
      rw [escape_cons]
      by_cases colon : c = ':'
      · subst colon
        simp [escapeChar_of_escaped, isEscaped, isKept]
        omega
      · cases kept : isKept c with
        | true =>
            have escaped : isEscaped c = true := by
              unfold isKept at kept
              unfold isEscaped
              simp_all
            simp [escapeChar_of_escaped escaped, kept, colon]
            omega
        | false =>
            have unescaped : isEscaped c = false := by
              unfold isKept at kept
              unfold isEscaped
              simp_all
            simp [escapeChar_of_plain unescaped, kept, colon]
            omega

theorem joinLower_length
    (lowers : List Text) :
    (joinLower lowers).length =
      lowers.flatten.length + lowers.flatten.countP isKept +
        (joinLower lowers).count ':' := by
  induction lowers with
  | nil =>
      rfl
  | cons path lowers inductionHypothesis =>
      have first := escape_length path
      cases lowers with
      | nil =>
          rw [joinLower_singleton]
          simpa using first
      | cons next lowers =>
          rw [joinLower_cons_cons]
          simp at inductionHypothesis ⊢
          omega

/-- A character with an escape that is kept makes the paths too long. -/
theorem plain_of_parseLowerdir
    {lowers : List Text}
    (same : parseLowerdir (joinLower lowers) = lowers) :
    ∀ path ∈ lowers, ∀ c ∈ path, isKept c = false := by
  have read := lowerFrom_length [] (joinLower lowers)
  have written := joinLower_length lowers
  unfold parseLowerdir at same
  rw [same, List.length_nil] at read
  have none_kept : lowers.flatten.countP isKept = 0 := by omega
  rw [List.countP_eq_zero] at none_kept
  intro path member c inPath
  have notKept := none_kept c (List.mem_flatten.mpr ⟨path, member, inPath⟩)
  simpa using notKept

/-! ## The three directories among other options -/

/-- The option of the lower directories. -/
def lowerOption (lowers : List Text) : Text :=
  "lowerdir=".toList ++ joinLower lowers

/-- The option of the upper directory. -/
def upperOption (upper : Text) : Text :=
  "upperdir=".toList ++ escape upper

/-- The option of the work directory. -/
def workOption (work : Text) : Text :=
  "workdir=".toList ++ escape work

/-- The keys of the three directories. -/
def directoryKeys : List Text :=
  ["lowerdir", "upperdir", "workdir"].map String.toList

section Directories

variable
  {Timeout : Type}
  {parseTimeout : Text → Option Timeout}

/-- An option of its own, accepted and about none of the directories. -/
structure Unrelated
    (parseTimeout : Text → Option Timeout)
    (opt : Text) : Prop where
  closed : closes false opt = true
  otherKey :
    ∀ {key value},
      splitOnce '=' opt = some (key, value) →
      key ∉ directoryKeys
  accepted :
    ∀ config : OverlayConfig Timeout,
      ∃ later, parseSingleOption parseTimeout opt config = .ok later

/-- The three options in any order, with other options between them. -/
structure Arranged
    (parseTimeout : Text → Option Timeout)
    (lowers : List Text)
    (upper work : Text)
    (opts : List Text) : Prop where
  hasLower : lowerOption lowers ∈ opts
  hasUpper : upperOption upper ∈ opts
  hasWork : workOption work ∈ opts
  others :
    ∀ opt ∈ opts,
      opt = lowerOption lowers ∨ opt = upperOption upper ∨
        opt = workOption work ∨ Unrelated parseTimeout opt

/-- The directories of a configuration. -/
def directories
    (config : OverlayConfig Timeout) :
    Option Text × Option Text × Option Text :=
  (config.lowerdir, config.upperdir, config.workdir)

/-- Where an option is accepted, the directories are those of before. -/
def KeepsDirectories
    (config : OverlayConfig Timeout)
    (parsed : Except Text (OverlayConfig Timeout)) : Prop :=
  ∀ later, parsed = .ok later → directories later = directories config

theorem keepsDirectories_ok
    {config later : OverlayConfig Timeout}
    (same : directories later = directories config) :
    KeepsDirectories config (.ok later) := by
  rintro _ ⟨⟩
  exact same

theorem keepsDirectories_ite
    {config : OverlayConfig Timeout}
    {condition : Prop}
    [Decidable condition]
    {first second : Except Text (OverlayConfig Timeout)}
    (firstKeeps : KeepsDirectories config first)
    (secondKeeps : KeepsDirectories config second) :
    KeepsDirectories config (if condition then first else second) := by
  split
  · exact firstKeeps
  · exact secondKeeps

theorem keepsDirectories_readValue
    {Value : Type}
    {name : String}
    {value : Text}
    {found : Option Value}
    {set : Value → OverlayConfig Timeout}
    {config : OverlayConfig Timeout}
    (keeps : ∀ result, directories (set result) = directories config) :
    KeepsDirectories config ((readValue name value found).map set) := by
  intro later read
  cases found with
  | none =>
      cases read
  | some result =>
      cases read
      exact keeps result

theorem keepsDirectories_of_otherKey
    (opt : Text)
    {key : Text}
    (value : Text)
    (config : OverlayConfig Timeout)
    (otherKey : key ∉ directoryKeys) :
    KeepsDirectories config
      (parseKeyValue parseTimeout opt key value config) := by
  simp only [directoryKeys, List.map_cons, List.map_nil, List.mem_cons,
    List.not_mem_nil, or_false, not_or] at otherKey
  unfold parseKeyValue
  rw [if_neg otherKey.1, if_neg otherKey.2.1, if_neg otherKey.2.2]
  repeat' apply keepsDirectories_ite
  all_goals
    first
      | exact keepsDirectories_readValue fun _ => rfl
      | exact keepsDirectories_ok rfl
      | exact fun _ impossible => by cases impossible

theorem directories_of_flag
    (opt : Text)
    (config : OverlayConfig Timeout) :
    directories (parseFlag opt config) = directories config := by
  unfold parseFlag
  split_ifs <;> rfl

/-- An unrelated option leaves the directories alone. -/
theorem directories_of_unrelated
    {opt : Text}
    {config later : OverlayConfig Timeout}
    (unrelated : Unrelated parseTimeout opt)
    (parsed : parseSingleOption parseTimeout opt config = .ok later) :
    directories later = directories config := by
  unfold parseSingleOption at parsed
  split at parsed
  · rename_i key value splits
    exact keepsDirectories_of_otherKey opt value config
      (unrelated.otherKey splits) later parsed
  · cases parsed
    exact directories_of_flag opt config

theorem splitOnce_lowerOption
    (lowers : List Text) :
    splitOnce '=' (lowerOption lowers) =
      some ("lowerdir".toList, joinLower lowers) :=
  rfl

theorem splitOnce_upperOption
    (upper : Text) :
    splitOnce '=' (upperOption upper) =
      some ("upperdir".toList, escape upper) :=
  rfl

theorem splitOnce_workOption
    (work : Text) :
    splitOnce '=' (workOption work) =
      some ("workdir".toList, escape work) :=
  rfl

theorem parseSingleOption_lowerOption
    (lowers : List Text)
    (config : OverlayConfig Timeout) :
    parseSingleOption parseTimeout (lowerOption lowers) config =
      .ok { config with lowerdir := some (joinLower lowers) } :=
  rfl

theorem parseSingleOption_upperOption
    (upper : Text)
    (config : OverlayConfig Timeout) :
    parseSingleOption parseTimeout (upperOption upper) config =
      .ok { config with upperdir := some upper } := by
  have parsed :
      parseSingleOption parseTimeout (upperOption upper) config =
        .ok { config with upperdir := some (unescapePath (escape upper)) } :=
    rfl
  rw [unescapePath_escape] at parsed
  exact parsed

theorem parseSingleOption_workOption
    (work : Text)
    (config : OverlayConfig Timeout) :
    parseSingleOption parseTimeout (workOption work) config =
      .ok { config with workdir := some work } := by
  have parsed :
      parseSingleOption parseTimeout (workOption work) config =
        .ok { config with workdir := some (unescapePath (escape work)) } :=
    rfl
  rw [unescapePath_escape] at parsed
  exact parsed

theorem closes_lowerOption
    (lowers : List Text) :
    closes false (lowerOption lowers) = true :=
  (closes_escape false "lowerdir=".toList (joinLower lowers)).trans
    (closes_joinLower lowers)

/-- A path and nothing after it ends outside quotes. -/
theorem closes_path
    (path : Text) :
    closes false (escape path) = true := by
  have whole := closes_escape false path []
  rw [List.append_nil] at whole
  rw [whole]
  rfl

theorem closes_upperOption
    (upper : Text) :
    closes false (upperOption upper) = true :=
  (closes_escape false "upperdir=".toList (escape upper)).trans
    (closes_path upper)

theorem closes_workOption
    (work : Text) :
    closes false (workOption work) = true :=
  (closes_escape false "workdir=".toList (escape work)).trans
    (closes_path work)

namespace Arranged

variable
  {lowers : List Text}
  {upper work : Text}
  {opts : List Text}

theorem closed
    (arranged : Arranged parseTimeout lowers upper work opts) :
    ∀ opt ∈ opts, closes false opt = true := by
  intro opt member
  rcases arranged.others opt member with rfl | rfl | rfl | unrelated
  · exact closes_lowerOption lowers
  · exact closes_upperOption upper
  · exact closes_workOption work
  · exact unrelated.closed

/-- Cutting the joined options drops the empty ones only. -/
theorem splitOptions
    (arranged : Arranged parseTimeout lowers upper work opts) :
    CommandLine.splitOptions ([','].intercalate opts) =
      opts.flatMap pushed :=
  splitOptions_join arranged.closed

end Arranged

/-- The three options differ in their keys. -/
theorem options_apart
    (lowers : List Text)
    (upper work : Text) :
    lowerOption lowers ≠ upperOption upper ∧
      lowerOption lowers ≠ workOption work ∧
      upperOption upper ≠ workOption work := by
  refine ⟨fun same => ?_, fun same => ?_, fun same => ?_⟩ <;>
  · have keys := congrArg (splitOnce '=') same
    simp [splitOnce_lowerOption, splitOnce_upperOption,
      splitOnce_workOption] at keys

theorem mem_flatMap_pushed
    {opts : List Text}
    {opt : Text} :
    opt ∈ opts.flatMap pushed ↔ opt ∈ opts ∧ opt ≠ [] := by
  simp only [List.mem_flatMap, pushed]
  constructor
  · rintro ⟨piece, member, inPiece⟩
    split at inPiece
    · cases inPiece
    · rename_i filled
      rw [List.mem_singleton] at inPiece
      subst inPiece
      exact ⟨member, by simpa using filled⟩
  · rintro ⟨member, filled⟩
    exact ⟨opt, member, by simp [filled]⟩

theorem arranged_pushed
    {lowers : List Text}
    {upper work : Text}
    {opts : List Text}
    (arranged : Arranged parseTimeout lowers upper work opts) :
    Arranged parseTimeout lowers upper work (opts.flatMap pushed) where
  hasLower :=
    mem_flatMap_pushed.mpr
      ⟨arranged.hasLower, List.append_ne_nil_of_left_ne_nil (by decide) _⟩
  hasUpper :=
    mem_flatMap_pushed.mpr
      ⟨arranged.hasUpper, List.append_ne_nil_of_left_ne_nil (by decide) _⟩
  hasWork :=
    mem_flatMap_pushed.mpr
      ⟨arranged.hasWork, List.append_ne_nil_of_left_ne_nil (by decide) _⟩
  others := fun opt member =>
    arranged.others opt (mem_flatMap_pushed.mp member).1

/-- What the options up to here have set, with the options before it. -/
structure SetBy
    (lowers : List Text)
    (upper work : Text)
    (opts : List Text)
    (config later : OverlayConfig Timeout) : Prop where
  lowerdir :
    later.lowerdir =
      if lowerOption lowers ∈ opts then
        some (joinLower lowers)
      else
        config.lowerdir
  upperdir :
    later.upperdir =
      if upperOption upper ∈ opts then some upper else config.upperdir
  workdir :
    later.workdir =
      if workOption work ∈ opts then some work else config.workdir

/-- Options in any order set the directories they are about. -/
theorem parseOptions_setBy
    {lowers : List Text}
    {upper work : Text}
    {opts : List Text}
    (others :
      ∀ opt ∈ opts,
        opt = lowerOption lowers ∨ opt = upperOption upper ∨
          opt = workOption work ∨ Unrelated parseTimeout opt)
    (config : OverlayConfig Timeout) :
    ∃ later,
      parseOptions parseTimeout opts config = .ok later ∧
        SetBy lowers upper work opts config later := by
  induction opts generalizing config with
  | nil =>
      exact ⟨config, rfl, ⟨rfl, rfl, rfl⟩⟩
  | cons opt opts inductionHypothesis =>
      have rest := inductionHypothesis fun other member =>
        others other (List.mem_cons_of_mem opt member)
      obtain ⟨lowerUpper, lowerWork, upperWork⟩ :=
        options_apart lowers upper work
      rcases others opt List.mem_cons_self with rfl | rfl | rfl | unrelated
      · obtain ⟨later, parsed, setBy⟩ :=
          rest { config with lowerdir := some (joinLower lowers) }
        refine ⟨later, ?_, ?_, ?_, ?_⟩
        · rw [parseOptions, parseSingleOption_lowerOption]
          exact parsed
        · rw [setBy.lowerdir]
          simp
        · rw [setBy.upperdir]
          simp [lowerUpper.symm]
        · rw [setBy.workdir]
          simp [lowerWork.symm]
      · obtain ⟨later, parsed, setBy⟩ :=
          rest { config with upperdir := some upper }
        refine ⟨later, ?_, ?_, ?_, ?_⟩
        · rw [parseOptions, parseSingleOption_upperOption]
          exact parsed
        · rw [setBy.lowerdir]
          simp [lowerUpper]
        · rw [setBy.upperdir]
          simp
        · rw [setBy.workdir]
          simp [upperWork.symm]
      · obtain ⟨later, parsed, setBy⟩ :=
          rest { config with workdir := some work }
        refine ⟨later, ?_, ?_, ?_, ?_⟩
        · rw [parseOptions, parseSingleOption_workOption]
          exact parsed
        · rw [setBy.lowerdir]
          simp [lowerWork]
        · rw [setBy.upperdir]
          simp [upperWork]
        · rw [setBy.workdir]
          simp
      · obtain ⟨between, accepted⟩ := unrelated.accepted config
        obtain ⟨later, parsed, setBy⟩ := rest between
        have same := directories_of_unrelated unrelated accepted
        simp only [directories, Prod.mk.injEq] at same
        have notLower : lowerOption lowers ≠ opt := by
          rintro rfl
          exact unrelated.otherKey (splitOnce_lowerOption lowers)
            (by simp [directoryKeys])
        have notUpper : upperOption upper ≠ opt := by
          rintro rfl
          exact unrelated.otherKey (splitOnce_upperOption upper)
            (by simp [directoryKeys])
        have notWork : workOption work ≠ opt := by
          rintro rfl
          exact unrelated.otherKey (splitOnce_workOption work)
            (by simp [directoryKeys])
        refine ⟨later, ?_, ?_, ?_, ?_⟩
        · rw [parseOptions, accepted]
          exact parsed
        · rw [setBy.lowerdir, same.1]
          simp [notLower]
        · rw [setBy.upperdir, same.2.1]
          simp [notUpper]
        · rw [setBy.workdir, same.2.2]
          simp [notWork]

/--
The directories arrive as they were written exactly when no lower path holds
a backslash, a comma or a double quote: `split_options` keeps the escapes and
`parse_lowerdir` removes that of a colon only.
-/
theorem parseOptionString_directories_iff
    {lowers : List Text}
    {upper work : Text}
    {opts : List Text}
    (filled : ∀ path ∈ lowers, path ≠ [])
    (arranged : Arranged parseTimeout lowers upper work opts)
    (config : OverlayConfig Timeout) :
    (∃ later,
      parseOptionString parseTimeout ([','].intercalate opts) config =
          .ok later ∧
        later.lowerdir.map parseLowerdir = some lowers ∧
        later.upperdir = some upper ∧
        later.workdir = some work) ↔
      ∀ path ∈ lowers, ∀ c ∈ path, isKept c = false := by
  have pushedArranged := arranged_pushed arranged
  obtain ⟨later, parsed, setBy⟩ :=
    parseOptions_setBy pushedArranged.others config
  have lowerdir := setBy.lowerdir
  have upperdir := setBy.upperdir
  have workdir := setBy.workdir
  rw [if_pos pushedArranged.hasLower] at lowerdir
  rw [if_pos pushedArranged.hasUpper] at upperdir
  rw [if_pos pushedArranged.hasWork] at workdir
  unfold parseOptionString
  rw [arranged.splitOptions, parsed]
  constructor
  · rintro ⟨_, ⟨⟩, same, -, -⟩
    rw [lowerdir, Option.map_some, Option.some.injEq] at same
    exact plain_of_parseLowerdir same
  · intro plain
    refine ⟨later, rfl, ?_, upperdir, workdir⟩
    rw [lowerdir, Option.map_some, parseLowerdir_joinLower filled plain]

end Directories

/-- A configuration before any option. -/
def emptyConfig : OverlayConfig Unit where
  lowerdir := none
  upperdir := none
  workdir := none
  redirectDir := none
  context := none
  plugins := none
  uidStr := none
  gidStr := none
  timeout := ()
  xattrPermissions := 0
  nfsFilehandles := 0
  threaded := false
  fsync := true
  fastInoCheck := false
  writeback := true
  disableXattrs := false
  squashToUid := none
  squashToGid := none
  debug := false
  foreground := false
  squashToRoot := false
  inoT32 := false
  staticNlink := false
  volatileMode := false
  noacl := false
  fuseOptions := []

/-- Three directories of the text, with another option between them. -/
theorem arranged_colon :
    Arranged (fun _ : Text => some ()) ["/a:b".toList, "/c".toList]
      "/u,v".toList "/w\\".toList
      [workOption "/w\\".toList, "noacl".toList,
        lowerOption ["/a:b".toList, "/c".toList],
        upperOption "/u,v".toList] where
  hasLower := by simp
  hasUpper := by simp
  hasWork := by simp
  others := by
    intro opt member
    simp only [List.mem_cons, List.not_mem_nil, or_false] at member
    rcases member with rfl | rfl | rfl | rfl
    · exact .inr (.inr (.inl rfl))
    · exact .inr (.inr (.inr ⟨rfl, by simp [splitOnce],
        fun config => ⟨_, rfl⟩⟩))
    · exact .inl rfl
    · exact .inr (.inl rfl)

/-- A colon in a lower path and anything in the other two arrive. -/
theorem parseOptionString_colon :
    ∃ later,
      parseOptionString (fun _ : Text => some ())
          ([','].intercalate [workOption "/w\\".toList, "noacl".toList,
            lowerOption ["/a:b".toList, "/c".toList],
            upperOption "/u,v".toList])
          emptyConfig = .ok later ∧
        later.lowerdir.map parseLowerdir =
          some ["/a:b".toList, "/c".toList] ∧
        later.upperdir = some "/u,v".toList ∧
        later.workdir = some "/w\\".toList :=
  (parseOptionString_directories_iff (by simp) arranged_colon
    emptyConfig).mpr (by simp [isKept])

/-- The comma of a lower path keeps its backslash. -/
theorem parseOptionString_comma :
    ¬ ∃ later,
      parseOptionString (fun _ : Text => some ())
          "lowerdir=/a\\,b,upperdir=/u,workdir=/w".toList emptyConfig =
            .ok later ∧
        later.lowerdir.map parseLowerdir = some ["/a,b".toList] ∧
        later.upperdir = some "/u".toList ∧
        later.workdir = some "/w".toList := by
  rintro ⟨later, parsed, same, -, -⟩
  cases parsed
  exact absurd same (by decide)

end CommandLine

end FuseOverlay
