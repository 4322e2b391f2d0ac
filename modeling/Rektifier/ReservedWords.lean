import Rektifier.BinarySearch
import Mathlib.Data.List.Lex
import Mathlib.Data.Char
import Mathlib.Order.Compare

namespace Rektifier

open BinarySearch List

def reservedWords : List String :=
  ["abort", "absolute", "action", "add", "after", "agent", "aggregate", "all", "allocate", "alter",
    "analyze", "and", "any", "archive", "are", "array", "as", "asc", "ascii", "asensitive",
    "assertion", "asymmetric", "at", "atomic", "attach", "attribute", "auth", "authorization",
    "authorize", "auto", "avg", "back", "backup", "base", "batch", "before", "begin", "between",
    "bigint", "binary", "bit", "blob", "block", "boolean", "both", "breadth", "bucket", "bulk",
    "by", "byte", "call", "called", "calling", "capacity", "cascade", "cascaded", "case", "cast",
    "catalog", "char", "character", "check", "class", "clob", "close", "cluster", "clustered",
    "clustering", "clusters", "coalesce", "collate", "collation", "collection", "column", "columns",
    "combine", "comment", "commit", "compact", "compile", "compress", "condition", "conflict",
    "connect", "connection", "consistency", "consistent", "constraint", "constraints",
    "constructor", "consumed", "continue", "convert", "copy", "corresponding", "count", "counter",
    "create", "cross", "cube", "current", "cursor", "cycle", "data", "database", "date", "datetime",
    "day", "deallocate", "dec", "decimal", "declare", "default", "deferrable", "deferred", "define",
    "defined", "definition", "delete", "delimited", "depth", "deref", "desc", "describe",
    "descriptor", "detach", "deterministic", "diagnostics", "directories", "disable", "disconnect",
    "distinct", "distribute", "do", "domain", "double", "drop", "dump", "duration", "dynamic",
    "each", "element", "else", "elseif", "empty", "enable", "end", "equal", "equals", "error",
    "escape", "escaped", "eval", "evaluate", "exceeded", "except", "exception", "exceptions",
    "exclusive", "exec", "execute", "exists", "exit", "explain", "explode", "export", "expression",
    "extended", "external", "extract", "fail", "false", "family", "fetch", "fields", "file",
    "filter", "filtering", "final", "finish", "first", "fixed", "flattern", "float", "for", "force",
    "foreign", "format", "forward", "found", "free", "from", "full", "function", "functions",
    "general", "generate", "get", "glob", "global", "go", "goto", "grant", "greater", "group",
    "grouping", "handler", "hash", "have", "having", "heap", "hidden", "hold", "hour", "identified",
    "identity", "if", "ignore", "immediate", "import", "in", "including", "inclusive", "increment",
    "incremental", "index", "indexed", "indexes", "indicator", "infinite", "initially", "inline",
    "inner", "innter", "inout", "input", "insensitive", "insert", "instead", "int", "integer",
    "intersect", "interval", "into", "invalidate", "is", "isolation", "item", "items", "iterate",
    "join", "key", "keys", "lag", "language", "large", "last", "lateral", "lead", "leading",
    "leave", "left", "length", "less", "level", "like", "limit", "limited", "lines", "list", "load",
    "local", "localtime", "localtimestamp", "location", "locator", "lock", "locks", "log", "loged",
    "long", "loop", "lower", "map", "match", "materialized", "max", "maxlen", "member", "merge",
    "method", "metrics", "min", "minus", "minute", "missing", "mod", "mode", "modifies", "modify",
    "module", "month", "multi", "multiset", "name", "names", "national", "natural", "nchar",
    "nclob", "new", "next", "no", "none", "not", "null", "nullif", "number", "numeric", "object",
    "of", "offline", "offset", "old", "on", "online", "only", "opaque", "open", "operator",
    "option", "or", "order", "ordinality", "other", "others", "out", "outer", "output", "over",
    "overlaps", "override", "owner", "pad", "parallel", "parameter", "parameters", "partial",
    "partition", "partitioned", "partitions", "path", "percent", "percentile", "permission",
    "permissions", "pipe", "pipelined", "plan", "pool", "position", "precision", "prepare",
    "preserve", "primary", "prior", "private", "privileges", "procedure", "processed", "project",
    "projection", "property", "provisioning", "public", "put", "query", "quit", "quorum", "raise",
    "random", "range", "rank", "raw", "read", "reads", "real", "rebuild", "record", "recursive",
    "reduce", "ref", "reference", "references", "referencing", "regexp", "region", "reindex",
    "relative", "release", "remainder", "rename", "repeat", "replace", "request", "reset",
    "resignal", "resource", "response", "restore", "restrict", "result", "return", "returning",
    "returns", "reverse", "revoke", "right", "role", "roles", "rollback", "rollup", "routine",
    "row", "rows", "rule", "rules", "sample", "satisfies", "save", "savepoint", "scan", "schema",
    "scope", "scroll", "search", "second", "section", "segment", "segments", "select", "self",
    "semi", "sensitive", "separate", "sequence", "serializable", "session", "set", "sets", "shard",
    "share", "shared", "short", "show", "signal", "similar", "size", "skewed", "smallint",
    "snapshot", "some", "source", "space", "spaces", "sparse", "specific", "specifictype", "split",
    "sql", "sqlcode", "sqlerror", "sqlexception", "sqlstate", "sqlwarning", "start", "state",
    "static", "status", "storage", "store", "stored", "stream", "string", "struct", "style", "sub",
    "submultiset", "subpartition", "substring", "subtype", "sum", "super", "symmetric", "synonym",
    "system", "table", "tablesample", "temp", "temporary", "terminated", "text", "than", "then",
    "throughput", "time", "timestamp", "timezone", "tinyint", "to", "token", "total", "touch",
    "trailing", "transaction", "transform", "translate", "translation", "treat", "trigger", "trim",
    "true", "truncate", "ttl", "tuple", "type", "under", "undo", "union", "unique", "unit",
    "unknown", "unlogged", "unnest", "unprocessed", "unsigned", "until", "update", "upper", "url",
    "usage", "use", "user", "users", "using", "uuid", "vacuum", "value", "valued", "values",
    "varchar", "variable", "variance", "varint", "varying", "view", "views", "virtual", "void",
    "wait", "when", "whenever", "where", "while", "window", "with", "within", "without", "work",
    "wrapped", "write", "year", "zone"]

/-- A word against a name read in lower case: by the first characters that differ, else by the
lengths. The characters are the bytes where the name is in ASCII. -/
def compareWord (w name : List Char) : Ordering :=
  ((w.zip name).findSome? fun (a, b) =>
    if a < b.toLower then some .lt else if a = b.toLower then none else some .gt).getD
    (cmp w.length name.length)

def isReserved (name : String) : Bool :=
  if !name.toList.all (·.toNat < 128) then false
  else (search (fun w => compareWord w.toList name.toList) reservedWords).isOk

/-- Whatever the case of ASCII letters. -/
def EqIgnoreAsciiCase (a b : String) : Prop := a.toList.map Char.toLower = b.toList.map Char.toLower

theorem compareWord_cons (a b : Char) (w name : List Char) :
    compareWord (a :: w) (b :: name) =
      if a < b.toLower then .lt else if a = b.toLower then compareWord w name else .gt := by
  have hlength : cmp (a :: w).length (b :: name).length = cmp w.length name.length := by
    rw [cmp, cmp, cmpUsing, cmpUsing]
    simp only [length_cons, Nat.add_lt_add_iff_right]
  rw [compareWord, compareWord, hlength, zip_cons_cons, List.findSome?_cons]
  generalize cmp w.length name.length = rest
  split_ifs with hlt heq
  · simp [hlt]
  · simp [heq]
  · simp [hlt, heq]

theorem compareWord_compares (w name : List Char) :
    (compareWord w name).Compares w (name.map Char.toLower) := by
  induction w generalizing name with
  | nil =>
    cases name with
    | nil => rfl
    | cons b name => exact List.Lex.nil
  | cons a w ih =>
    cases name with
    | nil => exact List.Lex.nil
    | cons b name =>
      rw [map_cons, compareWord_cons]
      rcases lt_trichotomy a b.toLower with hlt | heq | hgt
      · rw [if_pos hlt]
        exact List.Lex.rel hlt
      · rw [if_neg heq.not_lt, if_pos heq, heq]
        have hrest := ih name
        cases hcmp : compareWord w name with
        | lt | gt =>
          rw [hcmp] at hrest
          exact List.Lex.cons hrest
        | eq =>
          rw [hcmp] at hrest
          exact congrArg _ hrest
      · rw [if_neg hgt.not_gt, if_neg hgt.ne']
        exact List.Lex.rel hgt

/-- A word that may follow another in the table. -/
def Follows (a b : List Char) : Prop := a < b ∧ (b.all fun c => 'a' ≤ c && c ≤ 'z') = true

instance : DecidableRel Follows := fun _ _ => inferInstanceAs (Decidable (_ ∧ _))

instance : IsTrans (List Char) Follows := ⟨fun _ _ _ hab hbc => ⟨hab.1.trans hbc.1, hbc.2⟩⟩

theorem reservedWords_table : ([] :: reservedWords.map String.toList).IsChain Follows := by
  decide +kernel

theorem reservedWords_follow :
    (∀ w ∈ reservedWords, Follows [] w.toList) ∧
      reservedWords.Pairwise fun a b => Follows a.toList b.toList := by
  have hpairs := pairwise_cons.mp (isChain_iff_pairwise.mp reservedWords_table)
  exact ⟨fun w hw => hpairs.1 _ (mem_map_of_mem hw), pairwise_map.mp hpairs.2⟩

theorem reservedWord_letter {w : String} {c : Char} (hw : w ∈ reservedWords) (hc : c ∈ w.toList) :
    'a' ≤ c ∧ c ≤ 'z' := by
  have hall := all_eq_true.mp (reservedWords_follow.1 w hw).2 c hc
  simpa using hall

theorem toLower_of_gt {c : Char} (h : 'Z' < c) : c.toLower = c := by
  unfold Char.toLower
  exact dif_neg fun hupper => absurd hupper.2 (not_le.mpr h)

theorem map_toLower_reservedWord {w : String} (hw : w ∈ reservedWords) :
    w.toList.map Char.toLower = w.toList := by
  have hletter : ∀ c ∈ w.toList, c.toLower = id c := fun c hc =>
    toLower_of_gt (lt_of_lt_of_le (by decide) (reservedWord_letter hw hc).1)
  rw [map_congr_left hletter, map_id]

/-- The table is in the order of the comparison, whatever it is compared with. -/
theorem reservedWords_ordered (name : List Char) :
    Ordered (fun w => compareWord w.toList name) reservedWords := by
  refine reservedWords_follow.2.imp fun {a b} hfollows => ?_
  have hlt := hfollows.1
  have ha := compareWord_compares a.toList name
  have hb := compareWord_compares b.toList name
  exact ⟨fun h => hb.eq_gt.mpr ((ha.eq_gt.mp h).trans hlt),
    fun h => ha.eq_lt.mpr (hlt.trans (hb.eq_lt.mp h))⟩

/-- A name is reserved exactly when it is some entry of the table, in letters of any case. -/
theorem is_reserved_iff (name : String) :
    isReserved name = true ↔ ∃ w ∈ reservedWords, EqIgnoreAsciiCase name w := by
  have hentry : ∀ w ∈ reservedWords,
      compareWord w.toList name.toList = .eq ↔ EqIgnoreAsciiCase name w := by
    intro w hw
    rw [(compareWord_compares _ _).eq_eq, EqIgnoreAsciiCase, map_toLower_reservedWord hw]
    exact eq_comm
  by_cases hascii : name.toList.all (·.toNat < 128) = true
  · rw [isReserved, hascii, Bool.not_true, if_neg Bool.false_ne_true,
      search_isOk_iff (reservedWords_ordered name.toList)]
    exact exists_congr fun w => and_congr_right (hentry w)
  · have hfalse : isReserved name = false := by
      rw [isReserved, Bool.eq_false_iff.mpr hascii, Bool.not_false, if_pos rfl]
    rw [hfalse]
    refine ⟨fun h => absurd h Bool.false_ne_true, ?_⟩
    rintro ⟨w, hw, heq⟩
    -- a character outside ASCII stays as it is in lower case, and no word has one
    simp only [all_eq_true, not_forall, decide_eq_true_eq, not_lt] at hascii
    obtain ⟨c, hc, hle⟩ := hascii
    rw [EqIgnoreAsciiCase, map_toLower_reservedWord hw] at heq
    have hpast : 'z' < c := by
      have hz : 'z'.toNat < c.toNat := lt_of_lt_of_le (by decide) hle
      exact hz
    have hmem : c ∈ w.toList := by
      rw [← heq]
      exact mem_map.mpr ⟨c, hc, toLower_of_gt (lt_trans (by decide) hpast)⟩
    exact absurd (reservedWord_letter hw hmem).2 (not_le.mpr hpast)

end Rektifier
