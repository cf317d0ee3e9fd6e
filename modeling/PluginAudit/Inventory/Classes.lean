/-!
The classes, interfaces and enumerations that the runtime provides, in lower case.
-/

namespace PluginAudit.Inventory

/-- Every class-like type of the runtime, each one once. -/
def runtimeClasses : List String :=
  ["stdclass", "traversable", "iteratoraggregate", "iterator", "arrayaccess", "countable",
   "serializable", "stringable", "jsonserializable", "unitenum", "backedenum", "throwable",
   "exception", "errorexception", "error", "compileerror", "parseerror", "typeerror",
   "argumentcounterror", "valueerror", "arithmeticerror", "divisionbyzeroerror",
   "unhandledmatcherror", "closure", "generator", "weakreference", "weakmap", "attribute",
   "returntypewillchange", "allowdynamicproperties", "sensitiveparameter", "fiber", "fibererror",
   "datetimeinterface", "datetime", "datetimeimmutable", "datetimezone", "dateinterval",
   "dateperiod", "jsonexception", "logicexception", "badfunctioncallexception",
   "badmethodcallexception", "domainexception", "invalidargumentexception", "lengthexception",
   "outofrangeexception", "runtimeexception", "outofboundsexception", "overflowexception",
   "rangeexception", "underflowexception", "unexpectedvalueexception", "recursiveiterator",
   "outeriterator", "seekableiterator", "splobserver", "splsubject", "arrayiterator",
   "recursivearrayiterator", "arrayobject", "appenditerator", "cachingiterator",
   "callbackfilteriterator", "directoryiterator", "emptyiterator", "filesystemiterator",
   "filteriterator", "globiterator", "infiniteiterator", "iteratoriterator", "limititerator",
   "multipleiterator", "norewinditerator", "parentiterator", "recursivedirectoryiterator",
   "recursiveiteratoriterator", "recursivecallbackfilteriterator", "recursiveregexiterator",
   "regexiterator", "spldoublylinkedlist", "splqueue", "splstack", "splheap", "splminheap",
   "splmaxheap", "splpriorityqueue", "splfixedarray", "splobjectstorage", "splfileinfo",
   "splfileobject", "spltempfileobject", "reflectionexception", "reflection", "reflector",
   "reflectionclass", "reflectionobject", "reflectionmethod", "reflectionfunction",
   "reflectionfunctionabstract", "reflectionparameter", "reflectionproperty", "reflectionnamedtype",
   "reflectiontype", "reflectionenum", "reflectionattribute", "pdo", "pdostatement", "pdoexception",
   "mysqli", "mysqli_stmt", "mysqli_result", "mysqli_sql_exception", "domdocument", "domelement",
   "domnode", "domnodelist", "domxpath", "domtext", "domattr", "domexception", "simplexmlelement",
   "xmlreader", "xmlwriter", "curlhandle", "curlfile", "finfo", "ziparchive", "intldateformatter",
   "numberformatter", "collator", "normalizer"]

end PluginAudit.Inventory
