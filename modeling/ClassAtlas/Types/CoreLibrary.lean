import ClassAtlas.Symbols.Outline

/-!
# Core library

The well-known types of the .NET core library, by namespace, name and number of type parameters.
They bind like any other name but are never part of the analyzed source.
-/
namespace ClassAtlas

/-- A type of the core library; the types of the language also have a keyword, such as `int`. -/
structure CoreType where
  space : String
  name : String
  keyword? : Option String
  deriving DecidableEq, Repr

/-- The numbers of type parameters with which a name of the core library exists. -/
inductive Arity where
  | plain
  | one
  | two
  /-- With one type parameter or none. -/
  | optional
  | any
  deriving DecidableEq, Repr

/-- The arity admits a number of type arguments. -/
def Arity.admits : Arity → Nat → Bool
  | plain, count => count == 0
  | one, count => count == 1
  | two, count => count == 2
  | optional, count => count == 0 || count == 1
  | any, _ => true

/-- An entry of the core library. -/
structure CoreEntry where
  space : String
  name : String
  arity : Arity
  deriving DecidableEq, Repr

namespace CoreType

def fullName (t : CoreType) : String := dotted t.space t.name

/-- The keywords of the language and the types in `System` that they stand for. -/
def keywords : List (String × String) :=
  [("object", "Object"), ("string", "String"), ("bool", "Boolean"), ("byte", "Byte"),
    ("sbyte", "SByte"), ("char", "Char"), ("decimal", "Decimal"), ("double", "Double"),
    ("float", "Single"), ("short", "Int16"), ("ushort", "UInt16"), ("int", "Int32"),
    ("uint", "UInt32"), ("long", "Int64"), ("ulong", "UInt64"), ("nint", "IntPtr"),
    ("nuint", "UIntPtr"), ("void", "Void")]

/-- Types of `System`. -/
def systemTypes : List (String × Arity) :=
  [("DateTime", .plain), ("DateTimeOffset", .plain), ("DateOnly", .plain), ("TimeOnly", .plain),
    ("TimeSpan", .plain), ("Guid", .plain), ("Uri", .plain), ("Type", .plain), ("Enum", .plain),
    ("Array", .plain), ("Attribute", .plain), ("Delegate", .plain), ("EventArgs", .plain),
    ("EventHandler", .optional), ("Math", .plain), ("Convert", .plain), ("Console", .plain),
    ("Environment", .plain), ("Random", .plain), ("Nullable", .one), ("Lazy", .one),
    ("Func", .any), ("Action", .any), ("Tuple", .any), ("ValueTuple", .any), ("Span", .one),
    ("ReadOnlySpan", .one), ("Memory", .one), ("ReadOnlyMemory", .one), ("IDisposable", .plain),
    ("IAsyncDisposable", .plain), ("ICloneable", .plain), ("IComparable", .optional),
    ("IEquatable", .one), ("IFormattable", .plain), ("IServiceProvider", .plain),
    ("Exception", .plain), ("SystemException", .plain), ("ArgumentException", .plain),
    ("ArgumentNullException", .plain), ("ArgumentOutOfRangeException", .plain),
    ("InvalidOperationException", .plain), ("InvalidCastException", .plain),
    ("NotImplementedException", .plain), ("NotSupportedException", .plain),
    ("NullReferenceException", .plain), ("IndexOutOfRangeException", .plain),
    ("FormatException", .plain), ("OverflowException", .plain), ("DivideByZeroException", .plain),
    ("ObjectDisposedException", .plain), ("OperationCanceledException", .plain),
    ("TimeoutException", .plain), ("UnauthorizedAccessException", .plain)]

/-- Types of `System.Collections`. -/
def collectionTypes : List (String × Arity) :=
  [("IEnumerable", .plain), ("IEnumerator", .plain), ("ICollection", .plain), ("IList", .plain),
    ("IDictionary", .plain), ("ArrayList", .plain), ("Hashtable", .plain)]

/-- Types of `System.Collections.Generic`. -/
def genericCollectionTypes : List (String × Arity) :=
  [("List", .one), ("Dictionary", .two), ("HashSet", .one), ("SortedSet", .one),
    ("SortedDictionary", .two), ("SortedList", .two), ("Queue", .one), ("Stack", .one),
    ("LinkedList", .one), ("KeyValuePair", .two), ("IEnumerable", .one), ("IEnumerator", .one),
    ("IAsyncEnumerable", .one), ("ICollection", .one), ("IList", .one), ("ISet", .one),
    ("IDictionary", .two), ("IReadOnlyCollection", .one), ("IReadOnlyList", .one),
    ("IReadOnlyDictionary", .two), ("IComparer", .one), ("IEqualityComparer", .one),
    ("KeyNotFoundException", .plain)]

/-- Types of `System.Threading`. -/
def threadingTypes : List (String × Arity) :=
  [("CancellationToken", .plain), ("CancellationTokenSource", .plain), ("SemaphoreSlim", .plain),
    ("Thread", .plain), ("Interlocked", .plain), ("Monitor", .plain)]

/-- Types of `System.Threading.Tasks`. -/
def taskTypes : List (String × Arity) :=
  [("Task", .optional), ("ValueTask", .optional), ("TaskCompletionSource", .optional),
    ("Parallel", .plain)]

/-- Types of `System.Linq`. -/
def linqTypes : List (String × Arity) :=
  [("Enumerable", .plain), ("Queryable", .plain), ("IQueryable", .optional),
    ("IOrderedEnumerable", .one), ("IGrouping", .two), ("ILookup", .two)]

/-- Types of `System.IO`. -/
def fileTypes : List (String × Arity) :=
  [("Stream", .plain), ("MemoryStream", .plain), ("FileStream", .plain), ("File", .plain),
    ("FileInfo", .plain), ("Directory", .plain), ("DirectoryInfo", .plain), ("Path", .plain),
    ("TextReader", .plain), ("TextWriter", .plain), ("StreamReader", .plain),
    ("StreamWriter", .plain), ("StringReader", .plain), ("StringWriter", .plain),
    ("IOException", .plain), ("FileNotFoundException", .plain),
    ("DirectoryNotFoundException", .plain)]

/-- Types of `System.Text`. -/
def textTypes : List (String × Arity) :=
  [("StringBuilder", .plain), ("Encoding", .plain)]

/-- Entries of one namespace. -/
def inNamespace (space : String) (names : List (String × Arity)) : List CoreEntry :=
  names.map fun entry => ⟨space, entry.1, entry.2⟩

/-- Every entry of the core library, the types with keywords first. -/
def entries : List CoreEntry :=
  inNamespace "System" (keywords.map fun entry => (entry.2, .plain)) ++
    inNamespace "System" systemTypes ++
    inNamespace "System.Collections" collectionTypes ++
    inNamespace "System.Collections.Generic" genericCollectionTypes ++
    inNamespace "System.Threading" threadingTypes ++
    inNamespace "System.Threading.Tasks" taskTypes ++
    inNamespace "System.Linq" linqTypes ++
    inNamespace "System.IO" fileTypes ++
    inNamespace "System.Text" textTypes

/-- The keyword for a type of `System`. -/
def keywordOf? (space name : String) : Option String :=
  if space == "System" then (keywords.find? fun entry => entry.2 == name).map Prod.fst else none

/-- Every entry with its full name. -/
def named : List (String × CoreEntry) :=
  entries.map fun entry => (dotted entry.space entry.name, entry)

/-- The core type with a full name and a number of type arguments. Type arguments leave no keyword.
-/
def lookupFullName? (fullName : String) (arity : Nat) : Option CoreType :=
  (named.find? fun (name, entry) => name == fullName && entry.arity.admits arity).map
    fun (_, entry) =>
      ⟨entry.space, entry.name, if arity == 0 then keywordOf? entry.space entry.name else none⟩

/-- The core type with a name in a namespace and a number of type arguments. -/
def lookup? (space name : String) (arity : Nat) : Option CoreType :=
  lookupFullName? (dotted space name) arity

/-- The core type with a dotted name and a number of type arguments. -/
def lookupQualified? (name : String) (arity : Nat) : Option CoreType :=
  (Text.splitLast? '.' name).bind fun parts => lookup? parts.1 parts.2 arity

/-- The core type behind a keyword. -/
def predefined? (keyword : String) : Option CoreType :=
  (keywords.find? fun entry => entry.1 == keyword).map fun entry =>
    ⟨"System", entry.2, some entry.1⟩

end CoreType

end ClassAtlas
