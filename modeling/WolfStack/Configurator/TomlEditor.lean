import WolfStack.Trees.Keyed
import Mathlib.Tactic.Common
import Mathlib.Algebra.Group.Nat.Defs
import Mathlib.Algebra.Group.Int.Defs

/-! The structured editor of TOML configurations, after `configurator/toml_editor.rs`. A configuration goes
through JSON and back whenever it is saved or repaired. A file stands for what parsing it gives. -/

open scoped List

namespace Configurator

/-- A double by its bits. -/
abbrev F64 := BitVec 64

def isFinite (f : F64) : Bool := f.toNat / 2 ^ 52 % 2 ^ 11 != 2 ^ 11 - 1

/-- Date-times by their texts, which tell apart offset and local ones. -/
inductive TomlScalar where
  | string (s : String)
  | integer (i : Int64)
  | float (f : F64)
  | boolean (b : Bool)
  | datetime (text : String)
deriving DecidableEq

abbrev Toml := Doc TomlScalar

/-- Integers are those of `u64` and `i64`; other numbers are finite. -/
inductive Number where
  | integer (n : Int) (range : -2 ^ 63 ≤ n ∧ n < 2 ^ 64)
  | float (f : F64) (finite : isFinite f = true)
deriving DecidableEq

inductive JsonScalar where
  | null
  | bool (b : Bool)
  | number (n : Number)
  | string (s : String)
deriving DecidableEq

abbrev Json := Doc JsonScalar

def isNull : JsonScalar → Bool
  | .null => true
  | _ => false

def scalarToJson : TomlScalar → JsonScalar
  | .string s => .string s
  | .integer i => .number (.integer i.toInt ⟨i.le_toInt, by have bound := i.toInt_lt; omega⟩)
  | .float f => if finite : isFinite f = true then .number (.float f finite) else .null
  | .boolean b => .bool b
  | .datetime text => .string text

def tomlToJson (value : Toml) : Json := value.map scalarToJson

def Number.asI64 : Number → Option Int64
  | .integer n _ => if n < 2 ^ 63 then some (Int64.ofInt n) else none
  | .float _ _ => none

/-- The double nearest to a number between `2 ^ 63` and `2 ^ 64`, to the even one of two: the exponent and
the 53 bits of the significand, the first of which adds one to it. -/
def nearest (n : Nat) : F64 :=
  let q := n / 2 ^ 11
  let r := n % 2 ^ 11
  BitVec.ofNat 64 (1085 * 2 ^ 52 + (if r > 2 ^ 10 ∨ (r = 2 ^ 10 ∧ q % 2 = 1) then q + 1 else q))

/-- `as_f64`, of numbers that are no `i64`. -/
def Number.asF64 : Number → F64
  | .integer n _ => nearest n.toNat
  | .float f _ => f

def scalarToToml : JsonScalar → Option TomlScalar
  | .null => none
  | .bool b => some (.boolean b)
  | .number n =>
    match n.asI64 with
    | some i => some (.integer i)
    | none => some (.float n.asF64)
  | .string s => some (.string s)

def jsonToToml (value : Json) : Option Toml := value.sift scalarToToml

def plain : TomlScalar → Bool
  | .datetime _ => false
  | .float f => isFinite f
  | _ => true

def held : JsonScalar → Bool
  | .null => false
  | .number (.integer n _) => decide (n < 2 ^ 63)
  | _ => true

theorem plain_kept (a : TomlScalar) : scalarToToml (scalarToJson a) = some a ↔ plain a = true := by
  cases a with
  | string => exact iff_of_true rfl rfl
  | integer i =>
    have bound : i.toInt < 9223372036854775808 := i.toInt_lt
    simp [scalarToJson, scalarToToml, Number.asI64, plain, bound]
  | float f =>
    by_cases finite : isFinite f = true
    · simp [scalarToJson, scalarToToml, Number.asI64, Number.asF64, plain, finite]
    · simp [scalarToJson, scalarToToml, plain, finite]
  | boolean => exact iff_of_true rfl rfl
  | datetime => simp [scalarToJson, scalarToToml, plain]

theorem nearest_finite {n : Nat} (low : 2 ^ 63 ≤ n) (high : n < 2 ^ 64) : isFinite (nearest n) = true := by
  have bound : 2 ^ 52 ≤ n / 2 ^ 11 ∧ n / 2 ^ 11 < 2 ^ 53 := by omega
  have exponent : ∀ q, 2 ^ 52 ≤ q → q ≤ 2 ^ 53 → isFinite (BitVec.ofNat 64 (1085 * 2 ^ 52 + q)) = true := by
    intro q least most
    have small : (1085 * 2 ^ 52 + q) % 2 ^ 64 = 1085 * 2 ^ 52 + q := by omega
    rw [isFinite, BitVec.toNat_ofNat, small, bne_iff_ne]
    omega
  unfold nearest
  dsimp only
  split
  · exact exponent _ (by omega) (by omega)
  · exact exponent _ (by omega) (by omega)

theorem scalarToToml_plain {j : JsonScalar} {a : TomlScalar} (converted : scalarToToml j = some a) : plain a = true := by
  cases j with
  | null => cases converted
  | bool => cases converted; rfl
  | string => cases converted; rfl
  | number n =>
    cases n with
    | float f finite => cases converted; exact finite
    | integer n range =>
      rw [scalarToToml, Number.asI64] at converted
      split at converted
      · cases converted; rfl
      · rename_i large
        cases converted
        split at large
        · cases large
        · exact nearest_finite (by omega) (by omega)

theorem converts : Doc.Converts isNull held scalarToToml scalarToJson where
  gone a := by
    cases a with
    | number n => cases kept : n.asI64 <;> simp [scalarToToml, isNull, kept]
    | _ => simp [scalarToToml, isNull]
  kept a b converted := by
    cases a with
    | null => cases converted
    | bool => cases converted; exact iff_of_true rfl rfl
    | string => cases converted; exact iff_of_true rfl rfl
    | number n =>
      cases n with
      | float f finite =>
        cases converted
        simp [scalarToJson, Number.asF64, held, finite]
      | integer n range =>
        by_cases small : n < 2 ^ 63
        · simp only [scalarToToml, Number.asI64, small, if_true] at converted
          cases converted
          simp only [scalarToJson, held, Int64.toInt_ofInt_of_le range.1 small, decide_eq_true small]
        · simp only [scalarToToml, Number.asI64, small, if_false] at converted
          cases converted
          have finite : isFinite (nearest n.toNat) = true := nearest_finite (by omega) (by omega)
          rw [scalarToJson, Number.asF64, dif_pos finite, held, decide_eq_false small]
          simp
  lost a gone := by
    cases a with
    | null => rfl
    | _ => cases gone

inductive Component where
  | wolfDisk
  | wolfScale
  | wolfProxy
  | wolfServe
deriving DecidableEq, Repr

def Component.configPath : Component → String
  | .wolfDisk => "/etc/wolfdisk/config.toml"
  | .wolfScale => "/opt/wolfscale/wolfscale.toml"
  | .wolfProxy => "/opt/wolfproxy/wolfproxy.toml"
  | .wolfServe => "/opt/wolfserve/wolfserve.toml"

def Component.serviceName : Component → String
  | .wolfDisk => "wolfdisk"
  | .wolfScale => "wolfscale"
  | .wolfProxy => "wolfproxy"
  | .wolfServe => "wolfserve"

def section_ (k : String) (entries : List (String × Toml)) : String × Toml := (k, .table entries)
def text (k s : String) : String × Toml := (k, .scalar (.string s))
def int (k : String) (i : Int64) : String × Toml := (k, .scalar (.integer i))
def flag (k : String) (b : Bool) : String × Toml := (k, .scalar (.boolean b))
def empty (k : String) : String × Toml := (k, .array [])

/-! What the default templates parse to, sorted by names as the maps are. -/

def defaultWolfdisk : Toml := .table [
  section_ "cluster" [text "discovery" "udp://0.0.0.0:8551", text "name" "default", empty "peers"],
  section_ "mount" [flag "allow_other" true, text "path" "/mnt/wolfdisk"],
  section_ "node" [text "bind" "0.0.0.0:8550", text "data_dir" "/var/lib/wolfdisk", text "id" "node-1", text "role" "auto"],
  section_ "replication" [int "chunk_size" 4194304, int "factor" 3, text "mode" "shared"],
  section_ "s3" [text "bind" "0.0.0.0:9878", flag "enabled" false, text "region" "us-east-1"]]

def defaultWolfscale : Toml := .table [
  section_ "api" [text "bind_address" "0.0.0.0:8080", flag "cors_enabled" false, flag "enabled" true],
  section_ "cluster" [int "election_timeout_ms" 2000, int "heartbeat_interval_ms" 500, int "max_batch_entries" 1000, empty "peers"],
  section_ "database" [int "connect_timeout_secs" 30, text "host" "localhost", text "password" "", int "pool_size" 10,
    int "port" 3306, text "user" "wolfscale"],
  section_ "logging" [text "format" "pretty", text "level" "info"],
  section_ "node" [text "bind_address" "0.0.0.0:7654", text "data_dir" "/var/lib/wolfscale", text "id" "node-1"],
  section_ "wal" [int "batch_size" 1000, flag "compression" true, int "flush_interval_ms" 100, flag "fsync" true,
    int "retention_hours" 168, int "segment_size_mb" 64]]

def defaultWolfproxy : Toml := .table [
  section_ "firewall" [flag "enabled" false, int "rate_limit_rps" 100],
  section_ "logging" [text "access_log" "/var/log/wolfproxy/access.log", text "error_log" "/var/log/wolfproxy/error.log",
    text "level" "info"],
  section_ "server" [text "bind_address" "0.0.0.0:80", text "bind_address_ssl" "0.0.0.0:443", text "host" "0.0.0.0",
    int "worker_threads" 0]]

def defaultWolfserve : Toml := .table [
  section_ "logging" [text "access_log" "/var/log/wolfserve/access.log", text "error_log" "/var/log/wolfserve/error.log",
    text "level" "info"],
  section_ "server" [text "bind_address" "0.0.0.0:80", text "bind_address_ssl" "0.0.0.0:443", text "document_root" "/var/www/html",
    int "worker_threads" 0]]

def Component.defaultTemplate : Component → Toml
  | .wolfDisk => defaultWolfdisk
  | .wolfScale => defaultWolfscale
  | .wolfProxy => defaultWolfproxy
  | .wolfServe => defaultWolfserve

def defaultTemplateJson (comp : Component) : Json := tomlToJson comp.defaultTemplate

theorem template_table (comp : Component) : comp.defaultTemplate.isTable = true := by cases comp <;> rfl

theorem template_distinct (comp : Component) : comp.defaultTemplate.Distinct := by
  apply Doc.distinct_of_named
  cases comp <;> decide

theorem template_plain (comp : Component) : comp.defaultTemplate.all plain = true := by cases comp <;> rfl

def authoritativeReplacePaths : Component → List (List String)
  | .wolfDisk => [["s3", "buckets"]]
  | _ => []

inductive File where
  | unreadable (err : String)
  | garbled (err : String)
  | document (value : Toml)

/-- What the serializer and the disk do: the text by which a value that is no table is refused, and how
writing the file ends. -/
structure Outside where
  refusal : String
  written : Except String Unit

variable (comp : Component) (out : Outside)

def parseConfig : File → Except String Json
  | .unreadable err => .error err
  | .garbled err => .error ("Failed to parse TOML: " ++ err)
  | .document value => .ok (tomlToJson value)

/-- `to_string_pretty` and `write_file`; a document is a table. -/
def write (file : File) (value : Toml) (message : String) : Except String String × File :=
  if value.isTable = true then
    match out.written with
    | .ok () => (.ok message, .document value)
    | .error err => (.error err, file)
  else (.error ("Failed to serialize TOML: " ++ out.refusal), file)

def start : File → Json
  | .unreadable _ => defaultTemplateJson comp
  | .garbled _ => .table []
  | .document value => tomlToJson value

def replaced (data merged : Json) : Json :=
  (authoritativeReplacePaths comp).foldl (fun merged path =>
    match data.look path with
    | some incoming => merged.setAt path incoming
    | none => merged) merged

def savedText : String :=
  "Configuration saved to " ++ comp.configPath ++ ". Restart " ++ comp.serviceName ++ " to apply changes."

def saveConfig (file : File) (data : Json) : Except String String × File :=
  match jsonToToml (replaced comp data (Doc.merge isNull (start comp file) data)) with
  | none => (.error "Failed to convert config to TOML format", file)
  | some value => write out file value (savedText comp)

mutual

/-- The dotted paths of the template's leaves that there is nothing at. -/
def missingKeysAgainst (template actual : Json) (above : String) : List String :=
  match template with
  | .table items => missingEntries items actual above
  | _ => []

def missingEntries (items : List (String × Json)) (actual : Json) (above : String) : List String :=
  match items with
  | [] => []
  | (k, value) :: rest =>
    let path := if above = "" then k else above ++ "." ++ k
    (match actual.child k with
      | some found => if value.isTable = true then missingKeysAgainst value found path else []
      | none => if value.isTable = true then missingKeysAgainst value (.table []) path else [path]) ++ missingEntries rest actual above

end

def validateConfig (file : File) : Except String (List String) :=
  match parseConfig file with
  | .error err => .error err
  | .ok actual => .ok (missingKeysAgainst (defaultTemplateJson comp) actual "")

def existing : File → Json
  | .document value => tomlToJson value
  | _ => .table []

def completeText : String := comp.serviceName ++ " configuration is already complete — no repair needed."

def repairedText (missing : List String) : String :=
  "Repaired " ++ comp.configPath ++ " — filled in " ++ toString missing.length ++ " missing key(s): " ++ ", ".intercalate missing ++
    ". Restart " ++ comp.serviceName ++ " to apply."

def repairConfig (file : File) : Except String String × File :=
  let missing := missingKeysAgainst (defaultTemplateJson comp) (existing file) ""
  if missing = [] then (.ok (completeText comp), file)
  else
    match jsonToToml (Doc.merge isNull (defaultTemplateJson comp) (existing file)) with
    | none => (.error "Failed to convert repaired config to TOML", file)
    | some value => write out file value (repairedText comp missing)

/-- A configuration as it is parsed: no table has two settings of one name. -/
structure Config where
  root : Toml
  table : root.isTable = true
  distinct : root.Distinct

structure Form where
  data : Json
  distinct : data.Distinct

/-- The form says what is at the path: it has a value there, or one that takes the place of what is
beneath, or it submits a table that it owns and the path is in it. -/
def Present (data : Json) (path : List String) : Bool :=
  data.touches isNull path ||
    (authoritativeReplacePaths comp).any fun owned => owned.isPrefixOf path && (data.look owned).any fun v => !v.isDead isNull

structure Submitted (data : Json) (path : List String) (v : Json) : Prop where
  found : data.look path = some v
  live : v.isDead isNull = false
  whole : v.isTable = false ∨ path ∈ authoritativeReplacePaths comp

/-- Settings that the form says nothing of are as they were, type and all; what it submitted is there,
without the values that it left unset. -/
structure Kept (data : Json) (before after : Toml) : Prop where
  others : ∀ path, Present comp data path = false → after.look path = before.look path
  submitted : ∀ path v, Submitted comp data path v → ∃ u, after.look path = some u ∧ tomlToJson u = v.prune isNull

variable (config : Config) (form : Form) (refusal : String)

def SaveKeeps : Prop :=
  ∃ message after, saveConfig comp ⟨refusal, .ok ()⟩ (.document config.root) form.data = (.ok message, .document after) ∧
    Kept comp form.data config.root after

def RepairKeeps : Prop :=
  ∃ message after, repairConfig comp ⟨refusal, .ok ()⟩ (.document config.root) = (.ok message, .document after) ∧
    validateConfig comp (.document after) = .ok [] ∧
    ∀ path v, config.root.look path = some v → v.isTable = false → after.look path = some v

/-- The form is a table, or null. No date-times and no infinite floats are where it says nothing; it
submits no integers from `2 ^ 63` on, and no nulls in arrays; and for a table that it owns it submits null
only when there is none. -/
structure Sparing : Prop where
  shaped : form.data.isDead isNull = true ∨ form.data.isTable = true
  plain : ∀ path v, config.root.look path = some v → Present comp form.data path = false → v.all plain = true
  fits : ∀ path v, Submitted comp form.data path v → v.fits isNull held = true
  owned : ∀ path ∈ authoritativeReplacePaths comp, ∀ v, form.data.look path = some v → v.isDead isNull = true →
    config.root.look path = none

/-- Where the default template has a table on the way to a leaf, the configuration has nothing else. -/
def Clear : Prop :=
  ∀ above beneath leaf v, beneath ≠ [] → comp.defaultTemplate.look (above ++ beneath) = some leaf → leaf.isTable = false →
    config.root.look above = some v → v.isTable = true

/-- Nothing is missing; or there is no date-time and no infinite float, and no value where a table is needed. -/
def Repairable : Prop :=
  Doc.Covers comp.defaultTemplate config.root ∨ (config.root.all plain = true ∧ Clear comp config)

section
variable {comp} {base data v : Json} {path : List String}

theorem paths_cases (comp : Component) :
    authoritativeReplacePaths comp = [] ∨ ∃ owned, owned ≠ [] ∧ authoritativeReplacePaths comp = [owned] := by
  cases comp with
  | wolfDisk => exact .inr ⟨_, List.cons_ne_nil _ _, rfl⟩
  | _ => exact .inl rfl

theorem replaced_cases (comp : Component) (data merged : Json) :
    (replaced comp data merged = merged ∧ ∀ owned ∈ authoritativeReplacePaths comp, data.look owned = none) ∨
      ∃ owned v, owned ≠ [] ∧ authoritativeReplacePaths comp = [owned] ∧ data.look owned = some v ∧
        replaced comp data merged = merged.setAt owned v := by
  rcases paths_cases comp with none_ | ⟨owned, some_, only⟩
  · exact .inl ⟨by rw [replaced, none_]; rfl, by simp [none_]⟩
  · cases found : data.look owned with
    | none => exact .inl ⟨by simp [replaced, only, found], by simp [only, found]⟩
    | some v => exact .inr ⟨owned, v, some_, only, found, by simp [replaced, only, found]⟩

def outcome (comp : Component) (base data : Json) : Json := replaced comp data (Doc.merge isNull base data)

theorem outcome_distinct (first : base.Distinct) (second : data.Distinct) : (outcome comp base data).Distinct := by
  rw [outcome]
  rcases replaced_cases comp data (Doc.merge isNull base data) with ⟨same, -⟩ | ⟨owned, v, -, -, found, same⟩
  · rw [same]
    exact Doc.merge_distinct first second
  · rw [same]
    exact Doc.setAt_distinct (Doc.merge_distinct first second) (second.look found) owned

theorem outcome_table (opened : base.isTable = true) :
    (outcome comp base data).isTable = true ↔ data.isDead isNull = true ∨ data.isTable = true := by
  cases table : data.isTable with
  | true =>
    refine iff_of_true ?_ (.inr rfl)
    rw [outcome]
    rcases replaced_cases comp data (Doc.merge isNull base data) with ⟨same, -⟩ | ⟨owned, v, some_, -, -, same⟩
    · rw [same]
      cases data with
      | scalar => cases table
      | array => cases table
      | table => cases base <;> rfl
    · rw [same]
      obtain ⟨k, rest, rfl⟩ := List.exists_cons_of_ne_nil some_
      cases rest <;> rfl
  | false =>
    have untouched : outcome comp base data = Doc.merge isNull base data := by
      rw [outcome]
      rcases replaced_cases comp data (Doc.merge isNull base data) with ⟨same, -⟩ | ⟨owned, v, some_, -, found, -⟩
      · exact same
      · obtain ⟨k, rest, rfl⟩ := List.exists_cons_of_ne_nil some_
        rw [Doc.look_none table] at found
        cases found
    rw [untouched]
    cases dead : data.isDead isNull with
    | true => simp [Doc.merge_dead dead, opened]
    | false => simp [Doc.merge_leaf dead table, table]

theorem outcome_submitted (distinct : data.Distinct) (found : data.look path = some v)
    (whole : (v.isDead isNull = false ∧ v.isTable = false) ∨ path ∈ authoritativeReplacePaths comp) :
    (outcome comp base data).look path = some v := by
  have merged : v.isDead isNull = false → v.isTable = false → (Doc.merge isNull base data).look path = some v := by
    intro live closed
    rw [Doc.look_merge distinct found live, Doc.overlay_leaf live closed]
  rw [outcome]
  rcases replaced_cases comp data (Doc.merge isNull base data) with ⟨same, unowned⟩ | ⟨owned, w, some_, only, there, same⟩
  · rw [same]
    rcases whole with ⟨live, closed⟩ | member
    · exact merged live closed
    · rw [unowned path member] at found
      cases found
  · rw [same]
    rw [only, List.mem_singleton] at whole
    by_cases beneath : owned <+: path
    · obtain ⟨rest, rfl⟩ := beneath
      rw [Doc.setAt_beneath _ _ some_]
      rw [Doc.look_append, there] at found
      exact found
    · have leaf : v.isDead isNull = false ∧ v.isTable = false := by
        rcases whole with leaf | rfl
        · exact leaf
        · exact absurd (List.prefix_refl _) beneath
      by_cases above : path <+: owned
      · obtain ⟨rest, rfl⟩ := above
        have more : rest ≠ [] := by
          rintro rfl
          exact beneath (by simp)
        obtain ⟨⟨items, table⟩, -⟩ := @Doc.touches_above _ isNull _ _ _ _ there more
        rw [found] at table
        cases table
        cases leaf.2
      · rw [Doc.setAt_beside _ _ beneath above]
        exact merged leaf.1 leaf.2

theorem outcome_others (distinct : data.Distinct) (absent : Present comp data path = false) :
    ((outcome comp base data).look path).bind jsonToToml = (base.look path).bind jsonToToml ∨
      (((outcome comp base data).look path).bind jsonToToml = none ∧
        ∃ owned ∈ authoritativeReplacePaths comp, owned <+: path ∧ ∃ w, data.look owned = some w ∧ w.isDead isNull = true) := by
  rw [Present, Bool.or_eq_false_iff] at absent
  have merged : ((Doc.merge isNull base data).look path).bind jsonToToml = (base.look path).bind jsonToToml := by
    rcases @Doc.look_spared _ isNull base data distinct path absent.1 with same | ⟨nothing, dead⟩
    · rw [same]
    · rw [nothing]
      cases found : (Doc.merge isNull base data).look path with
      | none => rfl
      | some t => exact (converts.sift_none t).mpr (dead t found)
  rw [outcome]
  rcases replaced_cases comp data (Doc.merge isNull base data) with ⟨same, -⟩ | ⟨owned, w, some_, only, there, same⟩
  · rw [same]
    exact .inl merged
  · rw [same]
    by_cases beneath : owned <+: path
    · right
      have dead : w.isDead isNull = true := by
        have spared := absent.2
        rw [only] at spared
        simpa [List.isPrefixOf_iff_prefix.mpr beneath, there] using spared
      refine ⟨?_, owned, by rw [only]; exact List.mem_singleton_self _, beneath, w, there, dead⟩
      obtain ⟨rest, rfl⟩ := beneath
      rw [Doc.setAt_beneath _ _ some_]
      cases rest with
      | nil => exact (converts.sift_none w).mpr dead
      | cons k rest =>
        have closed : w.isTable = false := by
          cases w with
          | scalar => rfl
          | array => rfl
          | table => cases dead
        rw [Doc.look_none closed]
        rfl
    · by_cases above : path <+: owned
      · obtain ⟨rest, rfl⟩ := above
        have more : rest ≠ [] := by
          rintro rfl
          exact beneath (by simp)
        rw [(Doc.touches_above there more).2] at absent
        cases absent.1
      · left
        rw [Doc.setAt_beside _ _ beneath above]
        exact merged

end

section
variable {comp config form refusal}

theorem based_distinct (config : Config) : (tomlToJson config.root).Distinct := config.distinct.map scalarToJson

theorem look_json (value : Toml) (path : List String) : (tomlToJson value).look path = (value.look path).map tomlToJson := Doc.look_map _ _ _

theorem back_iff (v : Toml) : jsonToToml (tomlToJson v) = some v ↔ v.all plain = true := Doc.sift_map plain_kept v

theorem save_ok {message : String} {after : Toml} :
    saveConfig comp ⟨refusal, .ok ()⟩ (.document config.root) form.data = (.ok message, .document after) →
      jsonToToml (outcome comp (tomlToJson config.root) form.data) = some after ∧ after.isTable = true := by
  intro saved
  have kept : ∀ value, write ⟨refusal, .ok ()⟩ (.document config.root) value (savedText comp) = (.ok message, .document after) →
      value = after ∧ after.isTable = true := by
    intro value written
    rw [write] at written
    split at written
    · rename_i opened
      cases written
      exact ⟨rfl, opened⟩
    · cases written
  rw [saveConfig, start] at saved
  change (match jsonToToml (outcome comp (tomlToJson config.root) form.data) with | none => _ | some value => _) = _ at saved
  cases converted : jsonToToml (outcome comp (tomlToJson config.root) form.data) with
  | none =>
    rw [converted] at saved
    cases saved
  | some value =>
    rw [converted] at saved
    obtain ⟨rfl, opened⟩ := kept value saved
    exact ⟨rfl, opened⟩

theorem save_written {after : Toml} (converted : jsonToToml (outcome comp (tomlToJson config.root) form.data) = some after)
    (opened : after.isTable = true) :
    saveConfig comp ⟨refusal, .ok ()⟩ (.document config.root) form.data = (.ok (savedText comp), .document after) := by
  rw [saveConfig, start]
  change (match jsonToToml (outcome comp (tomlToJson config.root) form.data) with | none => _ | some value => _) = _
  rw [converted]
  dsimp only
  rw [write, if_pos opened]

theorem look_saved {after : Toml} (converted : jsonToToml (outcome comp (tomlToJson config.root) form.data) = some after) (path : List String) :
    after.look path = ((outcome comp (tomlToJson config.root) form.data).look path).bind jsonToToml :=
  Doc.look_sift (outcome_distinct (based_distinct config) form.distinct) converted path

theorem sparing_of_keeps (keeps : SaveKeeps comp config form refusal) : Sparing comp config form := by
  obtain ⟨message, after, saved, kept⟩ := keeps
  obtain ⟨converted, opened⟩ := save_ok saved
  have based : (tomlToJson config.root).isTable = true := by rw [tomlToJson, Doc.isTable_map, config.table]
  refine ⟨?_, ?_, ?_, ?_⟩
  · rw [← outcome_table based, ← opened]
    exact (Doc.isTable_sift converted).symm
  · intro path v found absent
    have same := kept.others path absent
    rw [look_saved converted, found] at same
    rcases outcome_others form.distinct absent with equal | ⟨gone, -⟩
    · rw [equal, look_json, found] at same
      exact (back_iff v).mp same
    · rw [gone] at same
      cases same
  · intro path v submitted
    obtain ⟨u, there, pruned⟩ := kept.submitted path v submitted
    rw [look_saved converted, outcome_submitted form.distinct submitted.found (submitted.whole.imp_left fun closed => ⟨submitted.live, closed⟩)] at there
    rw [← Doc.map_sift converts]
    have back : Doc.sift scalarToToml v = some u := there
    rw [back, Option.map_some]
    exact congrArg some pruned
  · intro path member v found dead
    have gone : (outcome comp (tomlToJson config.root) form.data).look path = some v := outcome_submitted form.distinct found (.inr member)
    have absent : Present comp form.data path = false := by
      rw [Present, Doc.touches_dead found dead, Bool.false_or]
      rcases paths_cases comp with none_ | ⟨owned, -, only⟩
      · rw [none_] at member
        cases member
      · rw [only] at member ⊢
        obtain rfl := List.mem_singleton.mp member
        simp [found, dead]
    rw [← kept.others path absent, look_saved converted, gone]
    exact (converts.sift_none v).mpr dead

theorem keeps_of_sparing (sparing : Sparing comp config form) : SaveKeeps comp config form refusal := by
  have based : (tomlToJson config.root).isTable = true := by rw [tomlToJson, Doc.isTable_map, config.table]
  have table : (outcome comp (tomlToJson config.root) form.data).isTable = true := (outcome_table based).mpr sparing.shaped
  obtain ⟨after, converted⟩ : ∃ after, jsonToToml (outcome comp (tomlToJson config.root) form.data) = some after := by
    cases shape : outcome comp (tomlToJson config.root) form.data with
    | scalar => rw [shape] at table; cases table
    | array => rw [shape] at table; cases table
    | table items => exact ⟨_, rfl⟩
  have opened : after.isTable = true := (Doc.isTable_sift converted).trans table
  refine ⟨_, after, save_written converted opened, ⟨?_, ?_⟩⟩
  · intro path absent
    rw [look_saved converted]
    rcases outcome_others form.distinct absent with equal | ⟨gone, owned, member, ⟨rest, rfl⟩, w, found, dead⟩
    · rw [equal, look_json]
      cases there : config.root.look path with
      | none => rfl
      | some v => exact (back_iff v).mpr (sparing.plain path v there absent)
    · rw [gone, Doc.look_append, sparing.owned owned member w found dead]
      rfl
  · intro path v submitted
    have there : (outcome comp (tomlToJson config.root) form.data).look path = some v :=
      outcome_submitted form.distinct submitted.found (submitted.whole.imp_left fun closed => ⟨submitted.live, closed⟩)
    have back := (Doc.map_sift converts v).mpr (sparing.fits path v submitted)
    obtain ⟨u, converted', pruned⟩ := Option.map_eq_some_iff.mp back
    refine ⟨u, ?_, pruned⟩
    rw [look_saved converted, there]
    exact converted'

end

/-! ### Repairing -/

theorem branch_covered {value actual : Json} {k : String}
    (ih : ∀ actual above, missingKeysAgainst value actual above = [] ↔ Doc.Covers value actual) (path : String) :
    (match actual.child k with
      | some found => if value.isTable = true then missingKeysAgainst value found path else []
      | none => if value.isTable = true then missingKeysAgainst value (.table []) path else [path]) = [] ↔
    ∀ beneath leaf, value.look beneath = some leaf → leaf.isTable = false → actual.look (k :: beneath) ≠ none := by
  cases opened : value.isTable with
  | true =>
    have notRoot : ∀ {beneath leaf}, value.look beneath = some leaf → leaf.isTable = false → beneath ≠ [] := by
      rintro _ leaf found closed rfl
      cases found
      rw [opened] at closed
      cases closed
    cases there : actual.child k with
    | some found =>
      simp only [if_true, ih, Doc.Covers, Doc.look, there, Option.bind_some]
    | none =>
      simp only [if_true, ih, Doc.Covers, Doc.look, there, Option.bind_none]
      constructor
      · intro covers beneath leaf found closed
        obtain ⟨j, rest, rfl⟩ := List.exists_cons_of_ne_nil (notRoot found closed)
        exact absurd rfl (covers (j :: rest) leaf found closed)
      · exact fun impossible beneath leaf found closed => absurd rfl (impossible beneath leaf found closed)
  | false =>
    have only : ∀ {beneath leaf}, value.look beneath = some leaf → beneath = [] := by
      intro beneath leaf found
      cases beneath with
      | nil => rfl
      | cons j rest =>
        rw [Doc.look_none opened] at found
        cases found
    cases there : actual.child k with
    | some found =>
      simp only [Bool.false_eq_true, if_false, true_iff]
      intro beneath leaf found closed
      obtain rfl := only found
      simp [Doc.look, there]
    | none =>
      simp only [Bool.false_eq_true, if_false, List.cons_ne_nil, false_iff]
      intro covers
      exact covers [] value rfl opened (by simp [Doc.look, there])

theorem missing_iff {template : Json} (distinct : template.Distinct) (actual : Json) (above : String) :
    missingKeysAgainst template actual above = [] ↔ Doc.Covers template actual := by
  induction template using Doc.induct generalizing actual above with
  | scalar a =>
    refine iff_of_true rfl fun path leaf found _ => ?_
    cases path with
    | nil => exact Option.some_ne_none _
    | cons => cases found
  | array items =>
    refine iff_of_true rfl fun path leaf found _ => ?_
    cases path with
    | nil => exact Option.some_ne_none _
    | cons => cases found
  | table items ih =>
    rw [missingKeysAgainst]
    have names : (items.map fun entry => entry.1).Nodup := distinct.names
    have each : ∀ entry ∈ items, ∀ actual above, missingKeysAgainst entry.2 actual above = [] ↔ Doc.Covers entry.2 actual := by
      intro entry member
      have child : (Doc.table items).child entry.1 = some entry.2 := Doc.lookup_of_mem names member
      exact fun actual above => ih entry member (distinct.child child) actual above
    have entries : missingEntries items actual above = [] ↔ ∀ entry ∈ items, ∀ beneath leaf, entry.2.look beneath = some leaf →
        leaf.isTable = false → actual.look (entry.1 :: beneath) ≠ none := by
      clear ih names distinct
      induction items with
      | nil => simp [missingEntries]
      | cons entry rest again =>
        obtain ⟨k, value⟩ := entry
        obtain ⟨first, others⟩ := List.forall_mem_cons.mp each
        rw [missingEntries, List.append_eq_nil_iff, again others, List.forall_mem_cons, branch_covered first]
    rw [entries]
    constructor
    · intro covers path leaf found closed
      cases path with
      | nil =>
        cases found
        cases closed
      | cons k path =>
        obtain ⟨value, child, beneath⟩ := Option.bind_eq_some_iff.mp found
        exact covers (k, value) (Doc.lookup_mem child) path leaf beneath closed
    · intro covers entry member beneath leaf found closed
      have child : (Doc.table items).child entry.1 = some entry.2 := Doc.lookup_of_mem names member
      refine covers (entry.1 :: beneath) leaf ?_ closed
      rw [Doc.look, child]
      exact found

section
variable {comp config refusal}

theorem defaults_distinct (comp : Component) : (defaultTemplateJson comp).Distinct := (template_distinct comp).map scalarToJson

theorem complete_iff (value : Toml) (above : String) :
    missingKeysAgainst (defaultTemplateJson comp) (tomlToJson value) above = [] ↔ Doc.Covers comp.defaultTemplate value :=
  (missing_iff (defaults_distinct comp) _ _).trans (Doc.covers_map scalarToJson scalarToJson)

/-- What an incomplete configuration is repaired to, before it is TOML again. -/
def mended (comp : Component) (config : Config) : Json := Doc.merge isNull (defaultTemplateJson comp) (tomlToJson config.root)

theorem mended_written (incomplete : ¬Doc.Covers comp.defaultTemplate config.root) :
    ∃ message after, jsonToToml (mended comp config) = some after ∧
      repairConfig comp ⟨refusal, .ok ()⟩ (.document config.root) = (.ok message, .document after) := by
  have table : (mended comp config).isTable = true := by
    have first : (defaultTemplateJson comp).isTable = true := by rw [defaultTemplateJson, tomlToJson, Doc.isTable_map, template_table]
    have second : (tomlToJson config.root).isTable = true := by rw [tomlToJson, Doc.isTable_map, config.table]
    rw [mended]
    cases template : defaultTemplateJson comp <;> rw [template] at first <;> cases first
    cases root : tomlToJson config.root <;> rw [root] at second <;> cases second
    rfl
  obtain ⟨after, converted⟩ : ∃ after, jsonToToml (mended comp config) = some after := by
    cases shape : mended comp config with
    | scalar => rw [shape] at table; cases table
    | array => rw [shape] at table; cases table
    | table items => exact ⟨_, rfl⟩
  have opened : after.isTable = true := (Doc.isTable_sift converted).trans table
  rw [← complete_iff config.root ""] at incomplete
  refine ⟨repairedText comp (missingKeysAgainst (defaultTemplateJson comp) (tomlToJson config.root) ""), after, converted, ?_⟩
  rw [repairConfig, existing, if_neg incomplete]
  change (match jsonToToml (mended comp config) with | none => _ | some value => _) = _
  rw [converted]
  dsimp only
  rw [write, if_pos opened]

theorem look_mended {after : Toml} (converted : jsonToToml (mended comp config) = some after) (path : List String) :
    after.look path = ((mended comp config).look path).bind jsonToToml :=
  Doc.look_sift (Doc.merge_distinct (defaults_distinct comp) (based_distinct config)) converted path

theorem mended_value {path : List String} {v : Toml} (found : config.root.look path = some v) (closed : v.isTable = false)
    (plainly : v.all plain = true) : (mended comp config).look path = some (tomlToJson v) := by
  have there : (tomlToJson config.root).look path = some (tomlToJson v) := by rw [look_json, found]; rfl
  have live : (tomlToJson v).isDead isNull = false := by
    rw [← Bool.not_eq_true, ← converts.sift_none]
    exact fun gone => Option.some_ne_none v (((back_iff v).mpr plainly).symm.trans gone)
  have leaf : (tomlToJson v).isTable = false := by rw [tomlToJson, Doc.isTable_map, closed]
  rw [mended, Doc.look_merge (based_distinct config) there live, Doc.overlay_leaf live leaf]

theorem mended_covers (clear : Clear comp config) {after : Toml}
    (converted : jsonToToml (mended comp config) = some after) : Doc.Covers comp.defaultTemplate after := by
  intro path leaf found closed
  rw [look_mended converted]
  cases touched : (tomlToJson config.root).touches isNull path with
  | true =>
    rcases Doc.touches_cases touched with ⟨c, there, live⟩ | ⟨above, beneath, c, rfl, more, there, shut, -⟩
    · rw [mended, Doc.look_merge (based_distinct config) there live, Option.bind_some, jsonToToml, ne_eq, converts.sift_none, Doc.overlay_live live]
      exact Bool.false_ne_true
    · rw [look_json, Option.map_eq_some_iff] at there
      obtain ⟨v, there, rfl⟩ := there
      have opened := clear above beneath leaf v more found closed there
      rw [tomlToJson, Doc.isTable_map, opened] at shut
      cases shut
  | false =>
    have template : (defaultTemplateJson comp).look path = some (tomlToJson leaf) := by rw [defaultTemplateJson, look_json, found]; rfl
    rcases @Doc.look_spared _ isNull (defaultTemplateJson comp) _ (based_distinct config) path touched with same | ⟨nothing, -⟩
    · have whole : leaf.all plain = true := (Doc.all_iff_look (template_distinct comp)).mp (template_plain comp) path leaf found closed
      rw [mended, same, template, Option.bind_some, (back_iff leaf).mpr whole]
      exact Option.some_ne_none leaf
    · rw [template] at nothing
      cases nothing

theorem repair_keeps_iff : RepairKeeps comp config refusal ↔ Repairable comp config := by
  by_cases complete : Doc.Covers comp.defaultTemplate config.root
  · refine iff_of_true ?_ (.inl complete)
    have nothing := (complete_iff config.root "").mpr complete
    refine ⟨completeText comp, config.root, ?_, ?_, fun _ _ found _ => found⟩
    · rw [repairConfig, existing, if_pos nothing]
    · rw [validateConfig, parseConfig]
      exact congrArg Except.ok nothing
  · obtain ⟨message, after, converted, repaired⟩ := @mended_written comp config refusal complete
    have valid : validateConfig comp (.document after) = .ok [] ↔ Doc.Covers comp.defaultTemplate after := by
      rw [validateConfig, parseConfig, ← complete_iff after "", Except.ok.injEq]
    constructor
    · rintro ⟨_, written, same, validated, unchanged⟩
      rw [repaired] at same
      cases same
      have plainly : config.root.all plain = true := by
        rw [Doc.all_iff_look config.distinct]
        intro path v found closed
        have there := unchanged path v found closed
        rw [look_mended converted] at there
        obtain ⟨j, -, back⟩ := Option.bind_eq_some_iff.mp there
        exact Doc.all_sift (fun _ _ => scalarToToml_plain) back
      refine .inr ⟨plainly, fun above beneath leaf v more found closed there => ?_⟩
      cases opened : v.isTable with
      | true => rfl
      | false =>
        exfalso
        have whole : v.all plain = true := (Doc.all_iff_look config.distinct).mp plainly above v there opened
        apply valid.mp validated (above ++ beneath) leaf found closed
        obtain ⟨k, rest, rfl⟩ := List.exists_cons_of_ne_nil more
        rw [look_mended converted, Doc.look_append, mended_value there opened whole, Option.bind_some, Doc.look_none]
        · rfl
        · rw [tomlToJson, Doc.isTable_map, opened]
    · rintro (covered | ⟨plainly, clear⟩)
      · exact absurd covered complete
      · refine ⟨message, after, repaired, valid.mpr (mended_covers clear converted), fun path v found closed => ?_⟩
        have whole : v.all plain = true := (Doc.all_iff_look config.distinct).mp plainly path v found closed
        rw [look_mended converted, mended_value found closed whole]
        exact (back_iff v).mpr whole

end

/-- Saving keeps the other settings and has what the form submits, and repairing completes a configuration
and changes nothing in it, just when no value is lost in JSON and none is in the way. -/
theorem settings_are_kept (comp : Component) (config : Config) (form : Form) (refusal : String) :
    (SaveKeeps comp config form refusal ∧ RepairKeeps comp config refusal) ↔ Sparing comp config form ∧ Repairable comp config :=
  and_congr ⟨sparing_of_keeps, keeps_of_sparing⟩ repair_keeps_iff

def started : Toml := .table [section_ "node" [text "id" "node-7", ("since", .scalar (.datetime "2024-05-01T10:00:00Z"))]]

/-- An empty form turns a date-time into a string. -/
theorem datetime_lost : ∃ config : Config, ∃ form : Form, ∃ refusal, config.root = started ∧ form.data = .table [] ∧
    ¬(SaveKeeps .wolfDisk config form refusal ∧ RepairKeeps .wolfDisk config refusal) := by
  refine ⟨⟨started, rfl, Doc.distinct_of_named (by decide)⟩, ⟨.table [], Doc.distinct_of_named (by decide)⟩, "", rfl, rfl, ?_⟩
  rintro ⟨⟨message, after, saved, kept⟩, -⟩
  have same := kept.others ["node", "since"] rfl
  obtain ⟨converted, -⟩ := save_ok saved
  rw [look_saved converted] at same
  cases same

end Configurator
