import Exemplar.Declaration.Basic

/-!
# Exemplar.ClassTable.Prelude

The classes that every table begins with: the root class, the collections and maps, class tokens
and optional values.  They have no fields.  Scalar library types such as `String` need no
declaration, since the registry answers for them.
-/

namespace Exemplar

/-- The declaration of a class without fields. -/
def libraryClass (name : String) (kind : ClassKind)
    (typeParameters extended implemented : List String) : ClassDecl where
  name := name
  kind := kind
  typeParameters := typeParameters
  extended := extended
  implemented := implemented
  enumConstants := []
  fields := []

/-- The built-in classes. -/
def preludeClasses : List ClassDecl := [
  libraryClass "java.lang.Object" .ordinary []
    [] [],
  libraryClass "java.lang.Iterable" .interface ["T"]
    [] [],
  libraryClass "java.lang.Class" .ordinary ["T"]
    [] [],
  libraryClass "java.util.Optional" .ordinary ["T"]
    [] [],
  libraryClass "java.lang.Enum" .ordinary ["E"]
    [] [],
  libraryClass "java.util.Collection" .interface ["E"]
    ["java.lang.Iterable<E>"] [],
  libraryClass "java.util.List" .interface ["E"]
    ["java.util.Collection<E>"] [],
  libraryClass "java.util.Set" .interface ["E"]
    ["java.util.Collection<E>"] [],
  libraryClass "java.util.SortedSet" .interface ["E"]
    ["java.util.Set<E>"] [],
  libraryClass "java.util.Queue" .interface ["E"]
    ["java.util.Collection<E>"] [],
  libraryClass "java.util.Deque" .interface ["E"]
    ["java.util.Queue<E>"] [],
  libraryClass "java.util.ArrayList" .ordinary ["E"]
    [] ["java.util.List<E>"],
  libraryClass "java.util.LinkedList" .ordinary ["E"]
    [] ["java.util.List<E>", "java.util.Deque<E>"],
  libraryClass "java.util.HashSet" .ordinary ["E"]
    [] ["java.util.Set<E>"],
  libraryClass "java.util.LinkedHashSet" .ordinary ["E"]
    ["java.util.HashSet<E>"] [],
  libraryClass "java.util.TreeSet" .ordinary ["E"]
    [] ["java.util.SortedSet<E>"],
  libraryClass "java.util.ArrayDeque" .ordinary ["E"]
    [] ["java.util.Deque<E>"],
  libraryClass "java.util.concurrent.CopyOnWriteArrayList" .ordinary ["E"]
    [] ["java.util.List<E>"],
  libraryClass "java.util.Map" .interface ["K", "V"]
    [] [],
  libraryClass "java.util.SortedMap" .interface ["K", "V"]
    ["java.util.Map<K,V>"] [],
  libraryClass "java.util.HashMap" .ordinary ["K", "V"]
    [] ["java.util.Map<K,V>"],
  libraryClass "java.util.LinkedHashMap" .ordinary ["K", "V"]
    ["java.util.HashMap<K,V>"] [],
  libraryClass "java.util.TreeMap" .ordinary ["K", "V"]
    [] ["java.util.SortedMap<K,V>"],
  libraryClass "java.util.concurrent.ConcurrentMap" .interface ["K", "V"]
    ["java.util.Map<K,V>"] [],
  libraryClass "java.util.concurrent.ConcurrentHashMap" .ordinary ["K", "V"]
    [] ["java.util.concurrent.ConcurrentMap<K,V>"]]

end Exemplar
