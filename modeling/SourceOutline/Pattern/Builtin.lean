import SourceOutline.Category
import SourceOutline.Language.Family
import SourceOutline.Language.Basic

/-!
# Built-In Patterns

Query patterns by layer and category. Captures are named by category and role: `def` is
the whole definition, `name`, `params` and `body` are its parts, and `module` is what
an import names. Captures that start with an underscore only feed conditions.
-/

namespace SourceOutline.Pattern.Builtin

/-- Patterns by category. -/
abbrev Table := List (Category × String)

/-- Patterns for every language. -/
def base : Table :=
  [(.errors, "(ERROR) @error.def")]

/-- Patterns for JavaScript and its relatives. -/
def ecmaScript : Table :=
  [(.functions, "
(function_declaration
  name: (identifier) @function.name
  parameters: (formal_parameters) @function.params
  body: (statement_block) @function.body) @function.def

(generator_function_declaration
  name: (identifier) @function.name
  parameters: (formal_parameters) @function.params
  body: (statement_block) @function.body) @function.def

(method_definition
  name: (_) @function.name
  parameters: (formal_parameters) @function.params
  body: (statement_block) @function.body) @function.def

(function_expression
  name: (identifier) @function.name
  parameters: (formal_parameters) @function.params
  body: (statement_block) @function.body) @function.def

(function_expression
  parameters: (formal_parameters) @function.params
  body: (statement_block) @function.body) @function.def

(arrow_function
  body: (_) @function.body) @function.def
"),
   (.classes, "
(class_declaration
  name: (_) @class.name
  body: (class_body) @class.body) @class.def
"),
   (.imports, "
(import_statement
  source: (string) @import.module) @import.def
"),
   (.comments, "(comment) @comment.def"),
   (.decorators, "(decorator) @decorator.def"),
   (.variables, "
(variable_declarator
  name: (identifier) @variable.name) @variable.def
")]

/-- Patterns for C and C++. -/
def cFamily : Table :=
  [(.functions, "
(function_definition
  declarator: (function_declarator
    declarator: (_) @function.name
    parameters: (parameter_list) @function.params)
  body: (compound_statement) @function.body) @function.def

(function_definition
  declarator: (pointer_declarator
    declarator: (function_declarator
      declarator: (_) @function.name
      parameters: (parameter_list) @function.params))
  body: (compound_statement) @function.body) @function.def
"),
   (.classes, "
(struct_specifier
  name: (type_identifier) @class.name
  body: (field_declaration_list) @class.body) @class.def

(union_specifier
  name: (type_identifier) @class.name
  body: (field_declaration_list) @class.body) @class.def

(enum_specifier
  name: (type_identifier) @class.name
  body: (enumerator_list) @class.body) @class.def
"),
   (.imports, "
(preproc_include
  path: (_) @import.module) @import.def
"),
   (.comments, "(comment) @comment.def")]

/-- Patterns for shells. -/
def shell : Table :=
  [(.comments, "(comment) @comment.def")]

/-- Patterns for Python. -/
def python : Table :=
  [(.functions, "
(function_definition
  name: (identifier) @function.name
  parameters: (parameters) @function.params
  body: (block) @function.body) @function.def

(lambda
  body: (_) @function.body) @function.def
"),
   (.classes, "
(class_definition
  name: (identifier) @class.name
  body: (block) @class.body) @class.def
"),
   (.imports, "
(import_statement
  name: (dotted_name) @import.module) @import.def

(import_statement
  name: (aliased_import
    name: (dotted_name) @import.module)) @import.def

(import_from_statement
  module_name: (dotted_name) @import.module) @import.def

(import_from_statement
  module_name: (relative_import) @import.module) @import.def
"),
   (.comments, "(comment) @comment.def"),
   (.decorators, "(decorator) @decorator.def"),
   (.variables, "
(assignment
  left: (identifier) @variable.name) @variable.def
")]

/-- Patterns for TypeScript and TSX: abstract classes and interfaces too. -/
def typeScript : Table :=
  [(.classes, "
(class_declaration
  name: (_) @class.name
  body: (class_body) @class.body) @class.def

(abstract_class_declaration
  name: (_) @class.name
  body: (class_body) @class.body) @class.def

(interface_declaration
  name: (_) @class.name
  body: (_) @class.body) @class.def
")]

/-- Patterns for Rust. -/
def rust : Table :=
  [(.functions, "
(function_item
  name: (identifier) @function.name
  parameters: (parameters) @function.params
  body: (block) @function.body) @function.def

(closure_expression
  parameters: (closure_parameters) @function.params
  body: (_) @function.body) @function.def
"),
   (.classes, "
(struct_item
  name: (type_identifier) @class.name) @class.def

(enum_item
  name: (type_identifier) @class.name
  body: (enum_variant_list) @class.body) @class.def

(trait_item
  name: (type_identifier) @class.name
  body: (declaration_list) @class.body) @class.def
"),
   (.imports, "
(use_declaration
  argument: (_) @import.module) @import.def

(extern_crate_declaration
  name: (identifier) @import.module) @import.def
"),
   (.comments, "[(line_comment) (block_comment)] @comment.def"),
   (.decorators, "(attribute_item) @decorator.def"),
   (.variables, "
(let_declaration
  pattern: (identifier) @variable.name) @variable.def
")]

/-- Patterns for Go. -/
def go : Table :=
  [(.functions, "
(function_declaration
  name: (identifier) @function.name
  parameters: (parameter_list) @function.params) @function.def

(method_declaration
  name: (field_identifier) @function.name
  parameters: (parameter_list) @function.params) @function.def

(func_literal
  parameters: (parameter_list) @function.params
  body: (block) @function.body) @function.def
"),
   (.classes, "
(type_spec
  name: (type_identifier) @class.name
  type: (struct_type) @class.body) @class.def

(type_spec
  name: (type_identifier) @class.name
  type: (interface_type) @class.body) @class.def
"),
   (.imports, "
(import_spec
  path: (_) @import.module) @import.def
"),
   (.comments, "(comment) @comment.def")]

/-- Patterns for Java. -/
def java : Table :=
  [(.functions, "
(method_declaration
  name: (identifier) @function.name
  parameters: (formal_parameters) @function.params) @function.def

(constructor_declaration
  name: (identifier) @function.name
  parameters: (formal_parameters) @function.params
  body: (constructor_body) @function.body) @function.def

(lambda_expression
  body: (_) @function.body) @function.def
"),
   (.classes, "
(class_declaration
  name: (identifier) @class.name
  body: (class_body) @class.body) @class.def

(interface_declaration
  name: (identifier) @class.name
  body: (interface_body) @class.body) @class.def

(enum_declaration
  name: (identifier) @class.name
  body: (enum_body) @class.body) @class.def
"),
   (.imports, "
(import_declaration
  (scoped_identifier) @import.module) @import.def

(import_declaration
  (identifier) @import.module) @import.def
"),
   (.comments, "[(line_comment) (block_comment)] @comment.def"),
   (.decorators, "[(annotation) (marker_annotation)] @decorator.def")]

/-- Patterns for C++: classes too. -/
def cpp : Table :=
  [(.classes, "
(class_specifier
  name: (_) @class.name
  body: (field_declaration_list) @class.body) @class.def

(struct_specifier
  name: (_) @class.name
  body: (field_declaration_list) @class.body) @class.def

(union_specifier
  name: (_) @class.name
  body: (field_declaration_list) @class.body) @class.def

(enum_specifier
  name: (_) @class.name
  body: (enumerator_list) @class.body) @class.def
")]

/-- Patterns for C#. -/
def csharp : Table :=
  [(.functions, "
(method_declaration
  name: (identifier) @function.name
  parameters: (parameter_list) @function.params) @function.def

(constructor_declaration
  name: (identifier) @function.name
  parameters: (parameter_list) @function.params) @function.def

(local_function_statement
  name: (identifier) @function.name
  parameters: (parameter_list) @function.params) @function.def

(lambda_expression) @function.def
"),
   (.classes, "
(class_declaration
  name: (identifier) @class.name) @class.def

(interface_declaration
  name: (identifier) @class.name) @class.def

(struct_declaration
  name: (identifier) @class.name) @class.def

(enum_declaration
  name: (identifier) @class.name) @class.def
"),
   (.imports, "
(using_directive
  (qualified_name) @import.module) @import.def

(using_directive
  (identifier) @import.module) @import.def
"),
   (.comments, "(comment) @comment.def"),
   (.decorators, "(attribute) @decorator.def")]

/-- Patterns for Ruby. -/
def ruby : Table :=
  [(.functions, "
(method
  name: (_) @function.name) @function.def

(singleton_method
  name: (_) @function.name) @function.def

(lambda) @function.def
"),
   (.classes, "
(class
  name: (_) @class.name) @class.def

(module
  name: (_) @class.name) @class.def
"),
   (.imports, "
((call
  method: (identifier) @_method
  arguments: (argument_list (string) @import.module)) @import.def
  (#any-of? @_method \"require\" \"require_relative\" \"load\"))
"),
   (.comments, "(comment) @comment.def")]

/-- Patterns for Bash. -/
def bash : Table :=
  [(.functions, "
(function_definition
  name: (word) @function.name
  body: (_) @function.body) @function.def
"),
   (.imports, "
((command
  name: (command_name) @_cmd
  argument: (_) @import.module) @import.def
  (#any-of? @_cmd \"source\" \".\"))
")]

/-- The patterns of a family. -/
def ofFamily : Family → Table
  | .ecmaScript => ecmaScript
  | .cFamily => cFamily
  | .shell => shell

/-- The patterns of a language itself. -/
def ofLanguage : Language → Table
  | .python => python
  | .typeScript => typeScript
  | .tsx => typeScript
  | .rust => rust
  | .go => go
  | .java => java
  | .cpp => cpp
  | .csharp => csharp
  | .ruby => ruby
  | .bash => bash
  | _ => []

end SourceOutline.Pattern.Builtin
