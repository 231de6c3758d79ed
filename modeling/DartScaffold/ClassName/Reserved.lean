/-!
Names that a generated class must not shadow: those of the Dart core libraries and of the core
package that every generated file imports.
-/

namespace DartScaffold.ClassName

def reserved : List String :=
  ["BigInt", "Comparable", "DateTime", "Duration", "Enum", "Error", "Exception", "Expando",
   "Function", "Future", "Iterable", "Iterator", "List", "Map", "MapEntry", "Null", "Object",
   "Pattern", "Record", "RegExp", "Set", "Sink", "StackTrace", "Stream", "String",
   "StringBuffer", "Symbol", "Type", "Uri", "bool", "double", "dynamic", "int", "num", "void",
   "Never",
   "File", "Directory", "HttpClient", "Uint8List", "Encoding",
   "Equatable", "Either", "Left", "Right", "Response", "UseCase", "StreamUseCase",
   "CacheStrategy", "MorphemeHttp", "MorphemeFailure", "MorphemeException", "InternalFailure"]

/-- The letters that go before a stem when its enclosing names give no free one. -/
def greekLetters : List String :=
  ["Alpha", "Beta", "Gamma", "Delta", "Epsilon", "Zeta", "Eta", "Theta", "Iota", "Kappa",
   "Lambda", "Mu", "Nu", "Xi", "Omicron", "Pi", "Rho", "Sigma", "Tau", "Upsilon", "Phi", "Chi",
   "Psi", "Omega"]

end DartScaffold.ClassName
